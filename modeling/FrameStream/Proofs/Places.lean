import Mathlib.Data.List.Basic

/-!
# Where things stand in a list

Channels, connections, jobs and units are known by their places in lists that grow at the end and in which one entry is
replaced at a time.
-/

namespace FrameStream

variable {α : Type} {xs : List α} {i k : Nat} {a x : α}

/-- What a list holds after one element was replaced. -/
theorem getElem?_set_eq_some (h : (xs.set i a)[k]? = some x) :
    (i = k ∧ x = a) ∨ (i ≠ k ∧ xs[k]? = some x) := by
  by_cases hik : i = k
  · subst hik
    have hlt : i < xs.length := by simpa using (List.getElem?_eq_some_iff.mp h).1
    rw [List.getElem?_set_self hlt, Option.some.injEq] at h
    exact .inl ⟨rfl, h.symm⟩
  · rw [List.getElem?_set_ne hik] at h
    exact .inr ⟨hik, h⟩

/-- What stands where it stood after one element was replaced by one that is related to it. -/
theorem exists_getElem?_set {R : α → α → Prop} (hrefl : ∀ x, R x x) {p : α}
    (hx : xs[k]? = some x) (hp : xs[i]? = some p) (h : i = k → R p a) : ∃ y, (xs.set i a)[k]? = some y ∧ R x y := by
  by_cases hik : i = k
  · subst hik
    rw [hx] at hp
    cases hp
    exact ⟨a, List.getElem?_set_self (List.getElem?_eq_some_iff.mp hx).1, h rfl⟩
  · exact ⟨x, by rw [List.getElem?_set_ne hik]; exact hx, hrefl x⟩

/-- What a list holds after one element was added. -/
theorem getElem?_concat_eq_some (h : (xs ++ [a])[k]? = some x) :
    xs[k]? = some x ∨ (k = xs.length ∧ x = a) := by
  rcases Nat.lt_or_ge k xs.length with hlt | hge
  · rw [List.getElem?_append_left hlt] at h
    exact .inl h
  · rw [List.getElem?_append_right hge, List.getElem?_singleton] at h
    simp only [Option.ite_none_right_eq_some, Option.some.injEq] at h
    exact .inr ⟨by omega, h.2.symm⟩

/-- In an ascending list the elements below `n` are those at the first indices. -/
theorem lt_countP_iff_of_ascending {n : Nat} : ∀ {xs : List Nat} {i x : Nat}, xs.Pairwise (· < ·) → xs[i]? = some x →
    (i < xs.countP (· < n) ↔ x < n)
  | y :: ys, i, x, h, hx => by
    obtain ⟨hy, hys⟩ := List.pairwise_cons.mp h
    by_cases hlt : y < n
    · rw [List.countP_cons_of_pos (by simpa using hlt)]
      cases i with
      | zero =>
        obtain rfl : y = x := by simpa using hx
        exact iff_of_true (Nat.zero_lt_succ _) hlt
      | succ i => exact Nat.succ_lt_succ_iff.trans (lt_countP_iff_of_ascending hys hx)
    · have hle : ∀ z ∈ y :: ys, n ≤ z := by
        intro z hz
        rcases List.mem_cons.mp hz with rfl | hz
        · exact Nat.not_lt.mp hlt
        · exact Nat.le_trans (Nat.not_lt.mp hlt) (Nat.le_of_lt (hy z hz))
      have hnone : (y :: ys).countP (· < n) = 0 :=
        List.countP_eq_zero.mpr fun z hz => by simpa using hle z hz
      rw [hnone]
      exact iff_of_false (Nat.not_lt_zero i) (Nat.not_lt.mpr (hle x (List.mem_of_getElem? hx)))

/-- Elements that have the same image under `f` are related by `g`; so a prefix of images is one of elements. -/
theorem prefix_map_of_prefix_map {α β : Type} {f : α → β} {g : α → α} : ∀ {xs ys : List α}, xs.map f <+: ys.map f →
    (∀ x ∈ xs, ∀ y ∈ ys, f x = f y → x = g y) → xs <+: ys.map g
  | [], _, _, _ => List.nil_prefix
  | x :: xs, [], h, _ => absurd h (by simp)
  | x :: xs, y :: ys, h, hg => by
    obtain ⟨hxy, hrest⟩ := List.cons_prefix_cons.mp h
    refine List.cons_prefix_cons.mpr ⟨hg x (by simp) y (by simp) hxy, ?_⟩
    exact prefix_map_of_prefix_map hrest fun x' hx' y' hy' => hg x' (by simp [hx']) y' (by simp [hy'])

end FrameStream
