import FrameStream.Proofs.Request.Reading

/-!
# The fields of a request as they are written

What is read for a field of a request changes that field alone. So the fields can be followed one by one through the
members of a request: another member leaves the key and the count as they are, and the member for the key puts into the
request what its value spells.
-/

namespace FrameStream

open Json

/-- An outcome is good if it is so without its error. -/
theorem ok_of_toOption {ε α : Type} {x : Except ε α} {a : α} (h : x.toOption = some a) : x = .ok a := by
  cases x with
  | error e => cases h
  | ok b => exact congrArg Except.ok (Option.some.inj h)

namespace Request

variable {levels : Nat} {t : Bytes} {s s' : Request × List String}

/-- Blanks around a request do not matter, and what is read is what the record makes of the text. -/
theorem toOption_parse {o : Option Request} (h : Takes (record.read 127) t o) (front back : Blanks) :
    (parse (front.bytes ++ (t ++ back.bytes))).toOption = o := by
  rw [← Record.parse_of_takes h front back, parse]
  cases record.parse (front.bytes ++ (t ++ back.bytes)) <;> rfl

/-! ## The count -/

def withCount (c : Option Json) (r : Request) : Request := { r with count := c }

/-- A field other than the count leaves the count alone, and is not changed by it. -/
theorem change_withCount {f : Json.Field Request} (hf : f ∈ record.fields) (hname : f.name ≠ "count")
    {change : Request → Request} (h : alone (f.read levels) t = some change) (c : Option Json) (r : Request) :
    change (withCount c r) = withCount c (change r) := by
  simp only [record, List.mem_cons, List.not_mem_nil, or_false] at hf
  rcases hf with rfl | rfl | rfl | rfl
  on_goal 3 => exact absurd rfl hname
  all_goals
    rw [alone_map] at h
    obtain ⟨v, -, rfl⟩ := Option.map_eq_some_iff.mp h
    rfl

/-! ## The key -/

theorem change_keepsKey {f : Json.Field Request} (hf : f ∈ record.fields) (hname : f.name ≠ "key")
    {change : Request → Request} (h : alone (f.read levels) t = some change) (r : Request) :
    (change r).key = r.key := by
  simp only [record, List.mem_cons, List.not_mem_nil, or_false] at hf
  rcases hf with rfl | rfl | rfl | rfl
  on_goal 1 => exact absurd rfl hname
  all_goals
    rw [alone_map] at h
    obtain ⟨v, -, rfl⟩ := Option.map_eq_some_iff.mp h
    rfl

/-- Members of other names leave the key alone. -/
theorem key_foldlM {es : List Entry} (hes : ∀ e ∈ es, spelled e.name ≠ some "key")
    (h : es.foldlM (record.enter? levels) s = some s') : s'.1.key = s.1.key := by
  induction es generalizing s with
  | nil =>
    cases h
    rfl
  | cons e es ih =>
    obtain ⟨u, hu, hrest⟩ := Option.bind_eq_some_iff.mp ((List.foldlM_cons ..).symm.trans h)
    refine (ih (fun e he => hes e (List.mem_cons_of_mem _ he)) hrest).trans ?_
    obtain ⟨name, hname, rfl | ⟨f, hf, hfname, -, change, hchange, rfl⟩⟩ := Record.enter?_eq_some hu
    · rfl
    · refine change_keepsKey hf (fun hkey => ?_) hchange s.1
      exact hes e List.mem_cons_self (hname.trans (congrArg some (hfname.symm.trans hkey)))

/-- The member for the key puts the text into the request that its value spells. -/
theorem key_enter? {slot : Slot} (hname : spelled slot.name = some "key") {ps : List Piece}
    (h : record.enter? levels s (slot.entry (Byte.quoteMark :: enclosed ps)) = some s') :
    s'.1.key = spelled ps := by
  have hread : Takes (optional wantString) (Byte.quoteMark :: enclosed ps) ((spelled ps).map some) :=
    (takes_wantString ps).optional (by decide) (by decide)
  rw [Record.enter?_slot (local_record levels) rfl hname (hread.map _)] at h
  split at h
  · cases h
  · rw [Option.map_map, Option.map_map] at h
    obtain ⟨k, hk, rfl⟩ := Option.map_eq_some_iff.mp h
    exact hk.symm

end Request
end FrameStream
