import Mathlib.Algebra.Group.Int.Defs
import Mathlib.Algebra.Group.Nat.Defs
import FrameStream.Proofs.Json.Results
import FrameStream.Proofs.Request.Accept
import FrameStream.Proofs.Unicode.Blank

/-!
# The rules for a request

Seven rules stand between a request and a job. `Request.Breaks` lists them in the order in which they are tried, each
with what a client is told; `Request.Acceptable` says what a request looks like that breaks none. Every group of rules
is judged by itself (`Request.Judged`), and groups that follow one another are judged as one.
-/

namespace FrameStream
namespace Request

/-- A request that breaks rule `n`, and what its client is told. -/
inductive Breaks (r : Request) : Nat → String → Prop
  | keyMissing (h : r.key = none) : Breaks r 0 "Job request is missing 'key'"
  | keyTooLong {key : String} (h : r.key = some key) (long : 256 < key.utf8ByteSize) :
    Breaks r 1 "Correlation key must not exceed 256 bytes"
  /-- Also where there is no resource at all. -/
  | resourceBlank (h : ∀ resource, r.resource = some resource → ∀ c ∈ resource.toList, Unicode.isBlank c = true) :
    Breaks r 2 "Resource reference must not be empty"
  | resourceTooLong {resource : String} (h : r.resource = some resource) (long : 128 < resource.utf8ByteSize) :
    Breaks r 3 "Resource reference must not exceed 128 bytes"
  | badCount {v : Json} (h : r.count = some v) (given : v ≠ .null) (other : ∀ n < 2 ^ 64, v ≠ .nat n) :
    Breaks r 4 ("'count' must be a non-negative integer, got " ++ v.text)
  | modelBlank {name : String} (h : r.model = some name) (blank : Unicode.Trimmed name "") :
    Breaks r 5 "Model name must not be empty"
  | modelTooLong {name trimmed : String} (h : r.model = some name) (trim : Unicode.Trimmed name trimmed)
    (long : 64 < trimmed.utf8ByteSize) : Breaks r 6 "Model name must not exceed 64 bytes"

/-- What a request looks like that is to become a job. -/
structure Acceptable (r : Request) : Prop where
  key : ∃ key, r.key = some key ∧ key.utf8ByteSize ≤ 256
  resource : ∃ resource, r.resource = some resource ∧ resource.utf8ByteSize ≤ 128 ∧
    ∃ c ∈ resource.toList, Unicode.isBlank c = false
  count : r.count = none ∨ r.count = some .null ∨ ∃ n < 2 ^ 64, r.count = some (.nat n)
  model : ∀ name, r.model = some name → ∃ trimmed, Unicode.Trimmed name trimmed ∧ trimmed ≠ "" ∧
    trimmed.utf8ByteSize ≤ 64

/-- The job that a request asks for: key and resource as they are given, the count, and the name of the model in lower
case. -/
structure AsksFor (r : Request) (defaultModel : String) (job : Job) : Prop where
  key : r.key = some job.key
  resource : r.resource = some job.resource
  requested : ∀ n, job.requested = some n ↔ r.count = some (.nat n)
  default : r.model = none → job.model = Unicode.lowercase defaultModel
  model : ∀ name, r.model = some name → ∃ trimmed, Unicode.Trimmed name trimmed ∧
    job.model = Unicode.lowercase trimmed

/-- A count that is a whole number has no more than 64 bits. -/
def CountHeld (r : Request) : Prop := ∀ i, r.count = some (.number (.whole i)) → i < 2 ^ 64

theorem keeps_countHeld : record.Keeps CountHeld := by
  intro f hf levels
  simp only [record, List.mem_cons, List.not_mem_nil, or_false] at hf
  rcases hf with rfl | rfl | rfl | rfl
  · exact Json.Gives.map fun s a r h r' hr' => hr'
  · exact Json.Gives.map fun s a r h r' hr' => hr'
  · refine Json.Gives.map fun s a r h r' _ i hi => ?_
    have hheld : i ≤ Json.maxWhole := Json.gives_optional (Json.gives_value levels) s a r h _ hi _ rfl i rfl
    exact Int.lt_of_le_of_lt hheld (by decide)
  · exact Json.Gives.map fun s a r h r' hr' => hr'

/-- Every request that is read holds its count so. -/
theorem countHeld_of_parse {source : Bytes} {r : Request} (h : parse source = .ok r) : r.CountHeld := by
  unfold parse at h
  split at h
  · rename_i hread
    cases h
    exact Json.Record.keeps_parse keeps_countHeld (fun i hi => nomatch hi) hread
  · cases h

/-- The rules from `lo` up to `hi` in a group of their own: the first of them that is broken is told, or none is. -/
inductive Judged (r : Request) (lo hi : Nat) {α : Type} (good : α → Prop) : Except Refusal α → Prop
  | passes {a : α} (fine : good a) (none : ∀ n t, r.Breaks n t → lo ≤ n → hi ≤ n) : Judged r lo hi good (.ok a)
  | fails {x : Refusal} {n : Nat} (low : lo ≤ n) (high : n < hi) (breaks : r.Breaks n x.reason)
    (first : ∀ m t, r.Breaks m t → lo ≤ m → n ≤ m) : Judged r lo hi good (.error x)

variable {r : Request} {lo mid hi : Nat} {α β : Type} {good : α → Prop} {good' : β → Prop} {defaultModel : String}

/-- Groups of rules that are tried one after the other. -/
theorem Judged.bind {x : Except Refusal α} {f : α → Except Refusal β} (hlo : lo ≤ mid) (hmid : mid ≤ hi)
    (hx : r.Judged lo mid good x) (hf : ∀ a, good a → r.Judged mid hi good' (f a)) :
    r.Judged lo hi good' (x >>= f) := by
  cases hx with
  | fails low high breaks first => exact .fails low (Nat.lt_of_lt_of_le high hmid) breaks first
  | @passes a fine none =>
    have hrest := hf a fine
    show r.Judged lo hi good' (f a)
    cases hfa : f a with
    | ok b =>
      rw [hfa] at hrest
      cases hrest with
      | passes fine' none' => exact .passes fine' fun n t ht hn => none' n t ht (none n t ht hn)
    | error x =>
      rw [hfa] at hrest
      cases hrest with
      | fails low high breaks first =>
        exact .fails (Nat.le_trans hlo low) high breaks fun m t ht hm => first m t ht (none m t ht hm)

/-! ## The groups -/

theorem judged_key (r : Request) : r.Judged 0 2 (fun key => r.key = some key) (validKey r.key) := by
  cases hkey : r.key with
  | none => exact .fails (x := .keyMissing) (Nat.le_refl 0) (by decide) (.keyMissing hkey) fun m _ _ _ => Nat.zero_le m
  | some key =>
    have hgiven : ¬ r.key = none := by simp [hkey]
    simp only [validKey]
    split
    · rename_i long
      refine .fails (x := .keyTooLong) (Nat.zero_le 1) (by decide) (.keyTooLong hkey long) fun m t ht _ => ?_
      cases ht with
      | keyMissing h => exact absurd h hgiven
      | _ => decide
    · rename_i short
      refine .passes rfl fun n t ht _ => ?_
      cases ht with
      | keyMissing h => exact absurd h hgiven
      | keyTooLong h long =>
        rw [hkey, Option.some.injEq] at h
        exact absurd (h ▸ long) short
      | _ => decide

/-- No resource counts as an empty one. -/
theorem blank_getD_iff : Unicode.trim (r.resource.getD "") = "" ↔
    ∀ resource, r.resource = some resource → ∀ c ∈ resource.toList, Unicode.isBlank c = true := by
  rw [Unicode.trim_eq_empty_iff]
  cases r.resource with
  | none => exact iff_of_true (fun c hc => nomatch hc) fun _ h => nomatch h
  | some resource => simp

theorem judged_resource (r : Request) :
    r.Judged 2 4 (fun resource => r.resource = some resource) (validResource r.resource) := by
  simp only [validResource, blank_getD_iff]
  split
  · rename_i blank
    exact .fails (x := .resourceBlank) (Nat.le_refl 2) (by decide) (.resourceBlank blank) fun m _ _ hm => hm
  · rename_i blank
    obtain ⟨resource, hresource⟩ : ∃ resource, r.resource = some resource := by
      cases h : r.resource with
      | none => exact absurd (fun _ hsome => nomatch h.symm.trans hsome) blank
      | some resource => exact ⟨resource, rfl⟩
    simp only [hresource, Option.getD_some]
    split
    · rename_i long
      refine .fails (x := .resourceTooLong) (by decide) (by decide) (.resourceTooLong hresource long)
        fun m t ht hm => ?_
      cases ht with
      | resourceBlank h => exact absurd h blank
      | keyMissing | keyTooLong => exact absurd hm (by decide)
      | _ => decide
    · rename_i short
      refine .passes rfl fun n t ht hm => ?_
      cases ht with
      | resourceBlank h => exact absurd h blank
      | resourceTooLong h long =>
        rw [hresource, Option.some.injEq] at h
        exact absurd (h ▸ long) short
      | keyMissing | keyTooLong => exact absurd hm (by decide)
      | _ => decide

theorem nat_inj {n m : Nat} : Json.nat n = Json.nat m ↔ n = m := by
  simp only [Json.nat, Json.number.injEq, Json.Number.whole.injEq, Int.ofNat_inj]

theorem natural?_eq_some_iff {v : Json} {n : Nat} : v.natural? = some n ↔ v = .nat n := by
  constructor
  · intro h
    unfold Json.natural? at h
    split at h
    · cases h
      rfl
    · cases h
  · rintro rfl
    rfl

theorem judged_count (hheld : r.CountHeld) :
    r.Judged 4 5 (fun requested => ∀ n, requested = some n ↔ r.count = some (.nat n)) (validCount r.count) := by
  have hpassed : (∀ v, r.count = some v → v ≠ .null → ∃ n < 2 ^ 64, v = .nat n) →
      ∀ n t, r.Breaks n t → 4 ≤ n → 5 ≤ n := fun hcount n t ht hn => by
    cases ht with
    | badCount h given other =>
      obtain ⟨k, hk, hv⟩ := hcount _ h given
      exact absurd hv (other k hk)
    | keyMissing | keyTooLong | resourceBlank | resourceTooLong => exact absurd hn (by decide)
    | _ => decide
  cases hcount : r.count with
  | none =>
    exact .passes (fun n => iff_of_false (fun h => nomatch h) fun h => nomatch h)
      (hpassed fun v h => nomatch hcount.symm.trans h)
  | some v =>
    by_cases hnull : v = .null
    · subst hnull
      refine .passes (fun n => iff_of_false (fun h => nomatch h) fun h => nomatch h) (hpassed fun v h hne => ?_)
      rw [hcount, Option.some.injEq] at h
      exact absurd h.symm hne
    · cases hv : v.natural? with
      | some n =>
        obtain rfl := natural?_eq_some_iff.mp hv
        refine .passes (fun m => ?_) (hpassed fun w hw _ => ⟨n, ?_, ?_⟩)
        · exact Option.some_inj.trans (nat_inj.symm.trans Option.some_inj.symm)
        · exact Int.ofNat_lt.mp (hheld n hcount)
        · exact (Option.some.inj (hcount.symm.trans hw)).symm
      | none =>
        have hother : ∀ n < 2 ^ 64, v ≠ .nat n := fun n _ heq => by
          rw [natural?_eq_some_iff.mpr heq] at hv
          cases hv
        have hjudge : validCount (some v) = .error (.badCount v) := by
          cases v with
          | null => exact absurd rfl hnull
          | _ => simp only [validCount, hv]
        rw [hjudge]
        exact .fails (x := .badCount v) (Nat.le_refl 4) (by decide) (.badCount hcount hnull hother) fun _ _ _ hm => hm

theorem judged_model (r : Request) (defaultModel : String) :
    r.Judged 5 7 (fun model => (r.model = none → model = Unicode.lowercase defaultModel) ∧
      ∀ name, r.model = some name → ∃ trimmed, Unicode.Trimmed name trimmed ∧ model = Unicode.lowercase trimmed)
      (validModel defaultModel r.model) := by
  cases hmodel : r.model with
  | none =>
    refine .passes ⟨fun _ => rfl, fun _ h => nomatch h⟩ fun n t ht hn => ?_
    cases ht with
    | modelBlank h _ => exact nomatch hmodel.symm.trans h
    | modelTooLong h _ _ => exact nomatch hmodel.symm.trans h
    | _ => exact absurd hn (by decide)
  | some name =>
    have htrimmed := Unicode.trimmed_trim name
    simp only [validModel]
    split
    · rename_i blank
      rw [blank] at htrimmed
      exact .fails (x := .modelBlank) (Nat.le_refl 5) (by decide) (.modelBlank hmodel htrimmed) fun _ _ _ hm => hm
    rename_i blank
    have hnotBlank : ∀ n t, r.Breaks n t → 5 ≤ n → n = 6 ∧ maxModelLength < (Unicode.trim name).utf8ByteSize :=
      fun n t ht hn => by
        cases ht with
        | modelBlank h trim =>
          rw [hmodel, Option.some.injEq] at h
          exact absurd (Unicode.trimmed_iff.mp (h ▸ trim)) blank
        | modelTooLong h trim long =>
          rw [hmodel, Option.some.injEq] at h
          exact ⟨rfl, Unicode.trimmed_iff.mp (h ▸ trim) ▸ long⟩
        | _ => exact absurd hn (by decide)
    split
    · rename_i long
      refine .fails (x := .modelTooLong) (by decide) (by decide) (.modelTooLong hmodel htrimmed long)
        fun m t ht hm => ?_
      exact (hnotBlank m t ht hm).1.ge
    · rename_i short
      refine .passes ⟨(nomatch ·), fun name' h => ?_⟩ fun n t ht hn => absurd (hnotBlank n t ht hn).2 short
      cases h
      exact ⟨_, htrimmed, rfl⟩

/-! ## All rules -/

theorem judged_validate (defaultModel : String) (hheld : r.CountHeld) :
    r.Judged 0 7 (fun job => r.AsksFor defaultModel job) (r.validate defaultModel) := by
  refine r.judged_key.bind (by decide) (by decide) fun key hkey => ?_
  refine r.judged_resource.bind (by decide) (by decide) fun resource hresource => ?_
  refine (judged_count hheld).bind (by decide) (by decide) fun requested hrequested => ?_
  refine (r.judged_model defaultModel).bind (by decide) (Nat.le_refl 7) fun model hmodel => ?_
  have hjob : r.AsksFor defaultModel { key, resource, requested, model } :=
    ⟨hkey, hresource, hrequested, hmodel.1, hmodel.2⟩
  exact .passes hjob fun n t ht hn => hn

/-- A request is acceptable exactly if it breaks no rule. -/
theorem acceptable_iff : r.Acceptable ↔ ∀ n t, ¬ r.Breaks n t := by
  constructor
  · rintro ⟨⟨key, hkey, hkeyLength⟩, ⟨resource, hresource, hlength, c, hc, hblank⟩, hcount, hmodel⟩ n t ht
    cases ht with
    | keyMissing h => exact nomatch hkey.symm.trans h
    | keyTooLong h long =>
      obtain rfl := Option.some.inj (hkey.symm.trans h)
      omega
    | resourceBlank h =>
      rw [h resource hresource c hc] at hblank
      cases hblank
    | resourceTooLong h long =>
      obtain rfl := Option.some.inj (hresource.symm.trans h)
      omega
    | badCount h given other =>
      rcases hcount with hnone | hnull | ⟨n, hn, hnat⟩
      · exact nomatch hnone.symm.trans h
      · exact given (Option.some.inj (h.symm.trans hnull))
      · exact other n hn (Option.some.inj (h.symm.trans hnat))
    | modelBlank h trim =>
      obtain ⟨trimmed, htrim, hne, -⟩ := hmodel _ h
      exact hne ((Unicode.trimmed_iff.mp htrim).symm.trans (Unicode.trimmed_iff.mp trim))
    | modelTooLong h trim long =>
      obtain ⟨trimmed, htrim, -, hshort⟩ := hmodel _ h
      obtain rfl := (Unicode.trimmed_iff.mp htrim).symm.trans (Unicode.trimmed_iff.mp trim)
      omega
  · intro hnone
    refine ⟨?_, ?_, ?_, ?_⟩
    · cases hkey : r.key with
      | none => exact absurd (.keyMissing hkey) (hnone _ _)
      | some key => exact ⟨key, rfl, Nat.le_of_not_lt fun long => hnone _ _ (.keyTooLong hkey long)⟩
    · by_contra hresource
      refine hnone _ _ (.resourceBlank fun resource h c hc => ?_)
      by_contra hblank
      refine hresource ⟨resource, h, ?_, c, hc, Bool.eq_false_iff.mpr hblank⟩
      exact Nat.le_of_not_lt fun long => hnone _ _ (.resourceTooLong h long)
    · cases hcount : r.count with
      | none => exact .inl rfl
      | some v =>
        by_contra hother
        simp only [reduceCtorEq, Option.some.injEq, false_or, not_or, not_exists, not_and] at hother
        exact hnone _ _ (.badCount hcount hother.1 hother.2)
    · intro name hmodel
      have htrimmed := Unicode.trimmed_trim name
      refine ⟨Unicode.trim name, htrimmed, fun hempty => ?_, ?_⟩
      · exact hnone _ _ (.modelBlank hmodel (hempty ▸ htrimmed))
      · exact Nat.le_of_not_lt fun long => hnone _ _ (.modelTooLong hmodel htrimmed long)

/-- A request asks for one job only. -/
theorem AsksFor.unique {job job' : Job} (h : r.AsksFor defaultModel job) (h' : r.AsksFor defaultModel job') :
    job = job' := by
  have hkey : job.key = job'.key := Option.some.inj (h.key.symm.trans h'.key)
  have hresource : job.resource = job'.resource := Option.some.inj (h.resource.symm.trans h'.resource)
  have hrequested : job.requested = job'.requested :=
    Option.ext fun n => (h.requested n).trans (h'.requested n).symm
  have hmodel : job.model = job'.model := by
    cases hm : r.model with
    | none => exact (h.default hm).trans (h'.default hm).symm
    | some name =>
      obtain ⟨t, ht, hlow⟩ := h.model name hm
      obtain ⟨t', ht', hlow'⟩ := h'.model name hm
      rw [hlow, hlow', ← Unicode.trimmed_iff.mp ht, ← Unicode.trimmed_iff.mp ht']
  cases job
  cases job'
  simp only at hkey hresource hrequested hmodel
  rw [hkey, hresource, hrequested, hmodel]

/-- A request becomes the job it asks for exactly if it is acceptable. Otherwise it is invalid, and its client is told
of the first rule that it breaks. -/
theorem validate_first_broken (r : Request) (defaultModel : String) (hheld : r.CountHeld) :
    (∀ job, r.validate defaultModel = .ok job ↔ r.Acceptable ∧ r.AsksFor defaultModel job) ∧
    (¬ r.Acceptable → ∃ x n message, r.validate defaultModel = .error x ∧ x.error = .invalid message ∧
      r.Breaks n message ∧ ∀ m t, r.Breaks m t → n ≤ m) := by
  have hbound : ∀ n t, r.Breaks n t → n < 7 := fun n t ht => by cases ht <;> decide
  have hjudged := judged_validate (r := r) defaultModel hheld
  cases hvalid : r.validate defaultModel with
  | ok job =>
    rw [hvalid] at hjudged
    cases hjudged with
    | passes asked none =>
      have hacceptable : r.Acceptable := acceptable_iff.mpr fun n t ht =>
        absurd (hbound n t ht) (Nat.not_lt.mpr (none n t ht (Nat.zero_le n)))
      refine ⟨fun job' => ⟨fun h => ?_, fun h => ?_⟩, fun hnot => absurd hacceptable hnot⟩
      · cases h
        exact ⟨hacceptable, asked⟩
      · rw [asked.unique h.2]
  | error x =>
    rw [hvalid] at hjudged
    cases hjudged with
    | fails low high breaks first =>
      refine ⟨fun job => iff_of_false (fun h => nomatch h) fun h => acceptable_iff.mp h.1 _ _ breaks, fun _ => ?_⟩
      exact ⟨x, _, x.reason, rfl, rfl, breaks, fun m t ht => first m t ht (Nat.zero_le m)⟩

/-- A blank resource and a bad count, and a model that is blank as well. -/
def threefold : Request :=
  { key := some "k", resource := some " \u3000", count := some (.bool true), model := some "\t" }

/-- Blanks are kept but around the name of a model, which is in capitals, one of them of two characters in lower
case. -/
def spaced : Request :=
  { key := some " ", resource := some " v", count := some (.nat (2 ^ 64 - 1)), model := some "\u3000İO\n" }

/-- The first of three broken rules is told; a request that breaks none becomes a job. -/
theorem validate_first_broken_of_three :
    (∃ x, threefold.validate "echo" = .error x ∧ x.error = .invalid "Resource reference must not be empty") ∧
    spaced.validate "echo" =
      .ok { key := " ", resource := " v", requested := some (2 ^ 64 - 1), model := "i\u0307o" } := by
  constructor
  · have hblank : threefold.Breaks 2 "Resource reference must not be empty" := by
      refine .resourceBlank fun resource h => ?_
      cases h
      exact List.all_eq_true.mp rfl
    obtain ⟨-, hrefused⟩ := validate_first_broken threefold "echo" (fun i h => nomatch h)
    obtain ⟨x, n, message, hx, herror, hbreaks, hfirst⟩ := hrefused fun h => acceptable_iff.mp h _ _ hblank
    refine ⟨x, hx, ?_⟩
    have hfirst := hfirst _ _ hblank
    cases hbreaks with
    | keyMissing h => cases h
    | keyTooLong h long =>
      cases h
      exact absurd long (by decide)
    | resourceBlank => exact herror
    | _ => exact absurd hfirst (by decide)
  · have hmodel : Unicode.Trimmed "\u3000İO\n" "İO" := Unicode.trimmed_iff.mpr (by decide +kernel)
    have hlow : Unicode.lowercase "İO" = "i\u0307o" := by decide +kernel
    refine ((validate_first_broken spaced "echo" fun i h => ?_).1 _).mpr ⟨⟨⟨" ", rfl, by decide⟩, ?_, ?_, ?_⟩, ?_⟩
    · cases h
      decide
    · exact ⟨" v", rfl, by decide, 'v', by decide, by decide⟩
    · exact .inr (.inr ⟨2 ^ 64 - 1, by decide, rfl⟩)
    · intro name h
      cases h
      exact ⟨_, hmodel, by decide, by decide⟩
    · refine ⟨rfl, rfl, fun n => ?_, (nomatch ·), fun name h => ?_⟩
      · exact Option.some_inj.trans (nat_inj.symm.trans Option.some_inj.symm)
      · cases h
        exact ⟨_, hmodel, hlow.symm⟩

end Request
end FrameStream
