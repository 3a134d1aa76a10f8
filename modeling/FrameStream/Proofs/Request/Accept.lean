import FrameStream.Registry

/-!
# What a request and its job have in common

A request is judged rule by rule, and each rule hands on one field of the job.
-/

namespace FrameStream

/-- A sequence of two steps succeeds only if both do. -/
theorem exists_of_bind_eq_ok {ε α β : Type} {x : Except ε α} {f : α → Except ε β} {b : β}
    (h : (x >>= f) = .ok b) : ∃ a, x = .ok a ∧ f a = .ok b := by
  cases x with
  | error e => cases h
  | ok a => exact ⟨a, rfl, h⟩

namespace Request

theorem validKey_eq_ok {given : Option String} {key : String} (h : validKey given = .ok key) :
    given = some key := by
  cases given with
  | none => cases h
  | some k =>
    simp only [validKey] at h
    split at h
    · cases h
    · cases h
      rfl

theorem validate_key {r : Request} {defaultModel : String} {job : Job}
    (h : r.validate defaultModel = .ok job) : r.key = some job.key := by
  obtain ⟨key, hkey, h⟩ := exists_of_bind_eq_ok h
  obtain ⟨resource, -, h⟩ := exists_of_bind_eq_ok h
  obtain ⟨requested, -, h⟩ := exists_of_bind_eq_ok h
  obtain ⟨model, -, h⟩ := exists_of_bind_eq_ok h
  cases h
  exact validKey_eq_ok hkey

/-- A request that becomes a job has passed every rule, and its model is known. -/
theorem validate_of_accept {r : Request} {defaultModel : String} {registry : Registry} {job : Job}
    {processor : Processor} (h : r.accept defaultModel registry = .ok (job, processor)) :
    r.validate defaultModel = .ok job ∧ registry.resolve job.model = .ok processor := by
  obtain ⟨job', hjob, h⟩ := exists_of_bind_eq_ok h
  obtain ⟨p, hp, h⟩ := exists_of_bind_eq_ok h
  cases h
  exact ⟨hjob, hp⟩

/-- A request that becomes a job has a key, and the job keeps it. -/
theorem accept_key {r : Request} {defaultModel : String} {registry : Registry} {job : Job}
    {processor : Processor} (h : r.accept defaultModel registry = .ok (job, processor)) :
    r.key = some job.key := by
  obtain ⟨job', hjob, h⟩ := exists_of_bind_eq_ok h
  obtain ⟨p, -, h⟩ := exists_of_bind_eq_ok h
  cases h
  exact validate_key hjob

end Request
end FrameStream
