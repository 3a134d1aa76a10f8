import Mathlib.Data.String.Basic
import FrameStream.NameTable

/-!
# Tables in ascending order

Inserting and erasing keep a table in ascending order, so that every name stands in it once: what is found under a name
is all there is, and the length counts the names. A change of every entry leaves the names as they are.
-/

namespace FrameStream.NameTable

variable {α : Type} {t : NameTable α} {name : String} {a b : α}

/-- The names stand in their order, each once. -/
def Ascending (t : NameTable α) : Prop := (names t).Pairwise (· < ·)

theorem mem_of_get? (h : t.get? name = some a) : (name, a) ∈ t := by
  induction t with
  | nil => cases h
  | cons e t ih =>
    obtain ⟨n, b⟩ := e
    unfold get? at h
    split at h
    · rename_i hname
      cases h
      exact hname ▸ List.mem_cons_self
    · exact List.mem_cons_of_mem _ (ih h)

theorem not_mem_names (h : t.get? name = none) : name ∉ names t := by
  induction t with
  | nil => exact List.not_mem_nil
  | cons e t ih =>
    obtain ⟨n, b⟩ := e
    unfold get? at h
    split at h
    · cases h
    · rename_i hne
      exact List.not_mem_cons_of_ne_of_not_mem (Ne.symm hne) (ih h)

theorem names_zip_sublist (names : List String) (as : List α) : (NameTable.names (names.zip as)).Sublist names := by
  induction names generalizing as with
  | nil => exact List.Sublist.slnil
  | cons n names ih =>
    cases as with
    | nil => exact List.nil_sublist _
    | cons a as => exact (ih as).cons_cons n

/-- Where names are put to things one by one, the thing at a place is found under the name at that place. -/
theorem get?_zip {names : List String} (h : names.Nodup) (as : List α) {i : Nat} (hi : names[i]? = some name) :
    get? name (names.zip as) = as[i]? := by
  induction names generalizing as i with
  | nil => cases hi
  | cons n names ih =>
    rw [List.nodup_cons] at h
    cases as with
    | nil => rfl
    | cons a as =>
      cases i with
      | zero =>
        cases hi
        rw [List.zip_cons_cons, get?, if_pos rfl, List.getElem?_cons_zero]
      | succ i =>
        rw [List.getElem?_cons_succ] at hi
        have hne : n ≠ name := fun heq => h.1 (heq ▸ List.mem_of_getElem? hi)
        rw [List.zip_cons_cons, get?, if_neg hne, List.getElem?_cons_succ]
        exact ih h.2 as hi

theorem get?_of_mem (h : t.Ascending) (hm : (name, a) ∈ t) : t.get? name = some a := by
  induction t with
  | nil => cases hm
  | cons e t ih =>
    obtain ⟨n, b⟩ := e
    have hbelow : ∀ m ∈ names t, n < m := (List.pairwise_cons.mp h).1
    rcases List.mem_cons.mp hm with heq | hm
    · cases heq
      rw [get?, if_pos rfl]
    · have hne : n ≠ name := ne_of_lt (hbelow name (List.mem_map_of_mem hm))
      rw [get?, if_neg hne]
      exact ih (List.pairwise_cons.mp h).2 hm

/-! ## Inserting -/

theorem mem_names_insert {n : String} : n ∈ (insert name a t).names ↔ n = name ∨ n ∈ names t := by
  induction t with
  | nil => simp [insert, names]
  | cons e t ih =>
    obtain ⟨m, b⟩ := e
    unfold insert
    split
    · simp [names]
    · split
      · rename_i heq
        simp [names, heq]
      · have hcons : n ∈ names ((m, b) :: insert name a t) ↔ n = m ∨ n ∈ (insert name a t).names := by simp [names]
        have hcons' : n ∈ names ((m, b) :: t) ↔ n = m ∨ n ∈ names t := by simp [names]
        rw [hcons, hcons', ih]
        exact or_left_comm

theorem ascending_insert (h : t.Ascending) : (insert name a t).Ascending := by
  induction t with
  | nil => exact List.pairwise_singleton _ _
  | cons e t ih =>
    obtain ⟨m, b⟩ := e
    obtain ⟨hbelow, hrest⟩ := List.pairwise_cons.mp h
    unfold insert
    split
    · rename_i hlt
      refine List.pairwise_cons.mpr ⟨fun n hn => ?_, h⟩
      rcases List.mem_cons.mp hn with rfl | hn
      · exact hlt
      · exact lt_trans hlt (hbelow n hn)
    · split
      · rename_i heq
        subst heq
        exact h
      · rename_i hlt hne
        refine List.pairwise_cons.mpr ⟨fun n hn => ?_, ih hrest⟩
        rcases mem_names_insert.mp hn with rfl | hn
        · exact lt_of_le_of_ne (not_lt.mp hlt) (Ne.symm hne)
        · exact hbelow n hn

/-- What stands under a name after an insertion. -/
theorem get?_insert_eq_some {other : String} :
    (insert name a t).get? other = some b ↔ (other = name ∧ a = b) ∨ (other ≠ name ∧ t.get? other = some b) := by
  by_cases h : other = name
  · subst h
    simp
  · rw [get?_insert_of_ne h]
    simp [h]

/-- What stands under a name after another one was erased, or the same. -/
theorem get?_erase_eq_some {other : String} :
    (erase name t).get? other = some a ↔ other ≠ name ∧ t.get? other = some a := by
  by_cases h : other = name
  · subst h
    simp
  · rw [get?_erase_of_ne h]
    simp [h]

theorem length_insert_of_none (h : t.get? name = none) : (insert name a t).length = t.length + 1 := by
  induction t with
  | nil => rfl
  | cons e t ih =>
    obtain ⟨n, b⟩ := e
    unfold get? at h
    split at h
    · cases h
    · rename_i hne
      unfold insert
      split
      · rfl
      · rw [if_neg (Ne.symm hne), List.length_cons, ih h, List.length_cons]

/-- Inserting what is found changes nothing. -/
theorem insert_eq_self (ht : t.Ascending) (h : t.get? name = some a) : insert name a t = t := by
  induction t with
  | nil => cases h
  | cons e t ih =>
    obtain ⟨n, b⟩ := e
    obtain ⟨hbelow, hrest⟩ := List.pairwise_cons.mp ht
    unfold get? at h
    split at h
    · rename_i heq
      cases h
      rw [insert, if_neg (heq ▸ lt_irrefl _), if_pos heq.symm, heq]
    · rename_i hne
      have hlt : n < name := hbelow name (List.mem_map_of_mem (mem_of_get? h))
      rw [insert, if_neg (lt_asymm hlt), if_neg (Ne.symm hne), ih hrest h]

/-- What goes under a name above all others goes to the end. -/
theorem insert_of_above (h : ∀ n ∈ names t, n < name) : insert name a t = t ++ [(name, a)] := by
  induction t with
  | nil => rfl
  | cons e t ih =>
    obtain ⟨n, b⟩ := e
    have hn : n < name := h n List.mem_cons_self
    have ht := ih fun m hm => h m (List.mem_cons_of_mem _ hm)
    rw [insert, if_neg (lt_asymm hn), if_neg (ne_of_gt hn), ht, List.cons_append]

/-! ## Erasing -/

theorem ascending_erase (h : t.Ascending) : (erase name t).Ascending :=
  h.sublist (List.filter_sublist.map Prod.fst)

theorem erase_of_not_mem (h : name ∉ names t) : erase name t = t := by
  refine List.filter_eq_self.mpr fun e he => ?_
  exact decide_eq_true fun heq => h (heq ▸ List.mem_map_of_mem he)

theorem length_erase_of_some (ht : t.Ascending) (h : t.get? name = some a) :
    (erase name t).length + 1 = t.length := by
  induction t with
  | nil => cases h
  | cons e t ih =>
    obtain ⟨n, b⟩ := e
    obtain ⟨hbelow, hrest⟩ := List.pairwise_cons.mp ht
    unfold get? at h
    split at h
    · rename_i heq
      subst heq
      have habsent : n ∉ names t := fun hn => lt_irrefl n (hbelow n hn)
      have hdrop : erase n ((n, b) :: t) = erase n t := List.filter_cons_of_neg (by simp)
      rw [hdrop, erase_of_not_mem habsent, List.length_cons]
    · rename_i hne
      have hkeep : erase name ((n, b) :: t) = (n, b) :: erase name t := List.filter_cons_of_pos (by simpa using hne)
      rw [hkeep, List.length_cons, ih hrest h, List.length_cons]

/-! ## Changing every entry -/

section
variable {β : Type} (f : α → β)

/-- The table with everything in it changed. -/
def mapValues (t : NameTable α) : NameTable β := t.map fun e => (e.1, f e.2)

theorem names_mapValues (t : NameTable α) : names (mapValues f t) = names t := by
  simp [names, mapValues, List.map_map, Function.comp_def]

theorem get?_mapValues (name : String) (t : NameTable α) : get? name (mapValues f t) = (get? name t).map f := by
  induction t with
  | nil => rfl
  | cons e t ih =>
    obtain ⟨n, b⟩ := e
    show get? name ((n, f b) :: mapValues f t) = _
    unfold get?
    split
    · rfl
    · exact ih

theorem mapValues_insert (name : String) (a : α) (t : NameTable α) :
    mapValues f (insert name a t) = insert name (f a) (mapValues f t) := by
  induction t with
  | nil => rfl
  | cons e t ih =>
    obtain ⟨n, b⟩ := e
    show mapValues f (insert name a ((n, b) :: t)) = insert name (f a) ((n, f b) :: mapValues f t)
    unfold insert
    split
    · rfl
    · split
      · rfl
      · exact congrArg ((n, f b) :: ·) ih

theorem mapValues_erase (name : String) (t : NameTable α) :
    mapValues f (erase name t) = erase name (mapValues f t) := by
  unfold mapValues erase
  rw [List.filter_map]
  rfl

end

end FrameStream.NameTable
