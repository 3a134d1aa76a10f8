import FrameStream.Proofs.Service.Steps
import Mathlib.Data.ENat.Lattice

/-!
# The plan of a dispatch

A dispatch sets out with a job, a processor, a window, a resource and a limit. From these alone follow the
number of units it produces, the message of every unit, and the number of reads it makes. The numbers are
natural numbers or infinity, for a resource need not end and a limit need not be given.
-/

namespace FrameStream

namespace ReadOutcome

def isFrame : ReadOutcome → Bool
  | .frame _ => true
  | _ => false

def frame! : ReadOutcome → Frame
  | .frame f => f
  | _ => default

end ReadOutcome

namespace Resource

/-- What read `i` of a resource gives, counted from zero. -/
def outcomeAt (r : Resource) (i : Nat) : ReadOutcome := (r.outcomes[i]?).getD r.thereafter

/-- A resource after `n` reads. -/
def after (r : Resource) (n : Nat) : Resource := { r with outcomes := r.outcomes.drop n, reads := r.reads + n }

/-- The number of frames before the first end or error. -/
def frames (r : Resource) : ℕ∞ :=
  if r.outcomes.all ReadOutcome.isFrame && r.thereafter.isFrame then ⊤
  else ((r.outcomes.takeWhile ReadOutcome.isFrame).length : ℕ)

theorem peek_after (r : Resource) (n : Nat) : (r.after n).peek = r.outcomeAt n := by
  simp [peek, after, outcomeAt, List.headD_eq_head?_getD]

theorem advance_after (r : Resource) (n : Nat) : (r.after n).advance = r.after (n + 1) := by
  simp [advance, after, Nat.add_assoc]

private theorem frames_cons (o : ReadOutcome) (rest : List ReadOutcome) (r : Resource) :
    frames { r with outcomes := o :: rest } =
      if o.isFrame then frames { r with outcomes := rest } + 1 else 0 := by
  cases ho : o.isFrame with
  | false => simp [frames, ho]
  | true =>
    by_cases hr : (rest.all ReadOutcome.isFrame && r.thereafter.isFrame) = true
    · simp [frames, ho, hr]
    · simp [frames, ho, hr]

theorem natCast_le_frames_iff (r : Resource) (n : Nat) :
    (n : ℕ∞) ≤ r.frames ↔ ∀ i < n, (r.outcomeAt i).isFrame = true := by
  obtain ⟨outcomes, thereafter, hint, reads⟩ := r
  induction outcomes generalizing n with
  | nil =>
    cases ht : thereafter.isFrame with
    | false =>
      simp only [frames, outcomeAt, ht, List.all_nil, Bool.and_false, Bool.false_eq_true, ↓reduceIte,
        List.takeWhile_nil, List.length_nil, Nat.cast_le, List.getElem?_nil, Option.getD_none]
      constructor
      · intro h i hi
        omega
      · intro h
        by_contra hn
        exact h 0 (by omega)
    | true => simp [frames, outcomeAt, ht]
  | cons o rest ih =>
    rw [frames_cons o rest ⟨[], thereafter, hint, reads⟩]
    cases n with
    | zero => simp
    | succ n =>
      cases ho : o.isFrame with
      | false =>
        simp only [Bool.false_eq_true, ↓reduceIte, nonpos_iff_eq_zero]
        constructor
        · intro h
          exact absurd h (by simp)
        · intro h
          have hz := h 0 (by omega)
          simp [outcomeAt, ho] at hz
      | true =>
        simp only [↓reduceIte, Nat.cast_add, Nat.cast_one]
        rw [ENat.add_le_add_iff_right ENat.one_ne_top, ih]
        constructor
        · intro h i hi
          cases i with
          | zero => simpa [outcomeAt] using ho
          | succ i => simpa [outcomeAt] using h i (by omega)
        · intro h i hi
          simpa [outcomeAt] using h (i + 1) (by omega)

theorem succ_le_frames {r : Resource} {n : Nat} (h : (n : ℕ∞) ≤ r.frames)
    (hf : (r.outcomeAt n).isFrame = true) : ((n + 1 : Nat) : ℕ∞) ≤ r.frames := by
  rw [natCast_le_frames_iff] at h ⊢
  intro i hi
  by_cases he : i = n
  · exact he ▸ hf
  · exact h i (by omega)

theorem frames_eq {r : Resource} {n : Nat} (h : (n : ℕ∞) ≤ r.frames)
    (hf : (r.outcomeAt n).isFrame = false) : r.frames = n := by
  refine le_antisymm ?_ h
  rw [← not_lt, ← Order.add_one_le_iff_of_not_isMax (by simp)]
  intro hlt
  have hn := (natCast_le_frames_iff r (n + 1)).mp (by exact_mod_cast hlt) n (by omega)
  rw [hf] at hn
  cases hn

theorem isFrame_of_lt_frames {r : Resource} {n : Nat} (h : (n : ℕ∞) < r.frames) :
    (r.outcomeAt n).isFrame = true := by
  have hle : ((n + 1 : Nat) : ℕ∞) ≤ r.frames := by exact_mod_cast Order.add_one_le_of_lt h
  exact (natCast_le_frames_iff r (n + 1)).mp hle n (by omega)

end Resource

def Dispatch.produced (d : Dispatch) : Nat := d.producer.produced

/-- The message for the unit of an index that ended in some way. -/
def UnitOutcome.message (key : String) (index : SequenceIndex) : UnitOutcome → Message
  | .done payload => .result key index payload
  | .failed e => .unitError key index e.reason
  | .aborted => .unitError key index "processing task aborted"

/-- The number of units delivered, as the outcome reports it. -/
def JobOutcome.emitted : JobOutcome → Nat
  | .finished _ n => n
  | _ => 0

/-- What a dispatch sets out with. -/
structure Plan where
  job : Job
  processor : Processor
  /-- The window as it is configured. -/
  window : Nat
  resource : Resource
  limit : Option Nat

namespace Plan

/-- The units that may be out at once. -/
def room (p : Plan) : Nat := max p.window 1

/-- The requested count, infinite if there is none. -/
def requested (p : Plan) : ℕ∞ :=
  match p.limit with
  | some n => n
  | none => ⊤

/-- The number of units of the plan: as many as requested, unless the resource has fewer frames. -/
def units (p : Plan) : ℕ∞ := if p.requested ≤ p.resource.frames then p.requested else p.resource.frames

/-- The number of reads of the plan. The end of the resource is read too, unless the limit comes before. -/
def readCount (p : Plan) : ℕ∞ := if p.requested ≤ p.resource.frames then p.requested else p.resource.frames + 1

def unit (p : Plan) (i : Nat) : WorkUnit := ⟨i, (p.resource.outcomeAt i).frame!⟩

def message (p : Plan) (i : Nat) : Message := (p.processor.process (p.unit i)).message p.job.key i

/-- The messages of the first `n` units. -/
def messages (p : Plan) (n : Nat) : List Message := (List.range n).map p.message

/-- The dispatch before its first step. -/
def start (p : Plan) : Dispatch :=
  { job := p.job, processor := p.processor, window := p.room
    producer := { resource := p.resource, limit := p.limit } }

def launch (p : Plan) (source : String → Except StreamError Resource) : Course :=
  { source, phase := .refilling p.start }

/-- A service with this dispatch alone, over a pool of its own. -/
def alone (p : Plan) (config : ServiceConfig) (size : Nat) : Service :=
  { config, pool := .ofSize size, courses := [p.launch fun _ => .ok p.resource] }

@[simp] theorem messages_length (p : Plan) (n : Nat) : (p.messages n).length = n := by simp [messages]

theorem units_eq_min (p : Plan) : p.units = min p.requested p.resource.frames := (min_def _ _).symm

theorem units_le_requested (p : Plan) : p.units ≤ p.requested := p.units_eq_min ▸ min_le_left _ _

theorem units_le_frames (p : Plan) : p.units ≤ p.resource.frames := p.units_eq_min ▸ min_le_right _ _

theorem atLimit_iff (p : Plan) {producer : Producer} (h : producer.limit = p.limit) :
    producer.atLimit = true ↔ p.requested ≤ (producer.produced : ℕ) := by
  unfold Producer.atLimit requested
  rw [h]
  cases p.limit with
  | none => simp
  | some n => simp

theorem room_pos (p : Plan) : 1 ≤ p.room := Nat.le_max_right _ _

theorem opened_ok (job : Job) (processor : Processor) (config : ServiceConfig) (resource : Resource) :
    (Phase.opening job processor).opened config (.ok resource) =
      .refilling (Plan.start ⟨job, processor, config.window, resource, job.requested⟩) := rfl

theorem message_eq (d : Dispatch) (i : Nat) (o : UnitOutcome) : d.message i o = o.message d.job.key i := by
  cases o <;> rfl

/-- How far the reading of a plan has come once `n` units are produced: the reads made, whether nothing more
will be produced, and the error that ended it. -/
inductive Reading (p : Plan) (n : Nat) : Nat → Bool → Option StreamError → Prop where
  | going : Reading p n n false none
  | limited (h : p.requested = n) : Reading p n n true none
  | ended (hl : (n : ℕ∞) < p.requested) (h : p.resource.outcomeAt n = .ended) :
    Reading p n (n + 1) true none
  | failed {e : StreamError} (hl : (n : ℕ∞) < p.requested) (h : p.resource.outcomeAt n = .failed e) :
    Reading p n (n + 1) true (some e)

section Reading

variable {p : Plan} {n reads : Nat} {exhausted : Bool} {e : Option StreamError}

theorem Reading.eq_of_going (h : p.Reading n reads false e) : reads = n ∧ e = none := by
  cases h
  exact ⟨rfl, rfl⟩

/-- Reading that has come to its end has made all reads of the plan, and produced all its units. -/
theorem Reading.finished (h : p.Reading n reads true e) (hn : (n : ℕ∞) ≤ p.units) :
    p.units = n ∧ p.readCount = reads := by
  have hr : (n : ℕ∞) ≤ p.requested := hn.trans p.units_le_requested
  have hf : (n : ℕ∞) ≤ p.resource.frames := hn.trans p.units_le_frames
  cases h with
  | limited hl =>
    refine ⟨by rw [units_eq_min, hl, min_eq_left hf], ?_⟩
    rw [readCount, hl, if_pos hf]
  | ended hl ho =>
    have hframes := Resource.frames_eq hf (by simp [ho, ReadOutcome.isFrame])
    refine ⟨by rw [units_eq_min, hframes, min_eq_right hr], ?_⟩
    rw [readCount, hframes, if_neg (not_le.mpr hl)]
    rfl
  | failed hl ho =>
    have hframes := Resource.frames_eq hf (by simp [ho, ReadOutcome.isFrame])
    refine ⟨by rw [units_eq_min, hframes, min_eq_right hr], ?_⟩
    rw [readCount, hframes, if_neg (not_le.mpr hl)]
    rfl

/-- Reading that ended without an error ended at the limit or at the end of the resource. -/
theorem Reading.of_none (h : p.Reading n reads true none) :
    p.requested = n ∨ ((n : ℕ∞) < p.requested ∧ p.resource.outcomeAt n = .ended) := by
  cases h with
  | limited hl => exact .inl hl
  | ended hl ho => exact .inr ⟨hl, ho⟩

/-- Reading that ended with an error met it before the limit. -/
theorem Reading.of_some {x : StreamError} (h : p.Reading n reads true (some x)) :
    (n : ℕ∞) < p.requested ∧ p.resource.outcomeAt n = .failed x := by
  cases h with
  | failed hl ho => exact ⟨hl, ho⟩

theorem natCast_le_readCount (hn : (n : ℕ∞) ≤ p.units) : (n : ℕ∞) ≤ p.readCount := by
  have hr : (n : ℕ∞) ≤ p.requested := hn.trans p.units_le_requested
  have hf : (n : ℕ∞) ≤ p.resource.frames := hn.trans p.units_le_frames
  unfold readCount
  split
  · exact hr
  · exact hf.trans le_self_add

theorem succ_le_readCount (hn : (n : ℕ∞) ≤ p.units) (hl : (n : ℕ∞) < p.requested) :
    ((n + 1 : Nat) : ℕ∞) ≤ p.readCount := by
  have hf : (n : ℕ∞) ≤ p.resource.frames := hn.trans p.units_le_frames
  unfold readCount
  split
  · exact_mod_cast Order.add_one_le_of_lt hl
  · rw [Nat.cast_add, Nat.cast_one]
    gcongr

theorem Reading.le_readCount (h : p.Reading n reads exhausted e) (hn : (n : ℕ∞) ≤ p.units) :
    (reads : ℕ∞) ≤ p.readCount := by
  cases exhausted with
  | false =>
    rw [h.eq_of_going.1]
    exact natCast_le_readCount hn
  | true => exact (h.finished hn).2.ge

end Reading
end Plan
end FrameStream
