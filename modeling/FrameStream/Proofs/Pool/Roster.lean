import FrameStream.Proofs.Pool.Slots
import Mathlib.Data.List.Induction

/-!
# The roster of a pool

Whoever submits a unit holds a handle for its outcome, and may drop it at any time. `Roster` is a pool together
with the units whose handle was dropped. Units are submitted and end, and the pool is closed, once or more often,
in any order. A clone of a pool is the pool itself. A slot goes to the unit that was submitted first of those
that wait; who is turned away first by a closed pool is left open.

The roster is at rest when no unit can take a slot and none can be turned away; a unit that runs may still end.
-/

namespace FrameStream

inductive RosterEvent where
  | submitted (processor : Processor) (u : WorkUnit)
  /-- The unit at a place takes a slot. -/
  | started (place : Nat)
  /-- The unit at a place ends and gives back its slot. -/
  | finished (place : Nat)
  /-- The unit at a place is turned away. -/
  | refused (place : Nat)
  | closed
  /-- The handle of the unit at a place is dropped. -/
  | dropped (place : Nat)

namespace RosterEvent

def submission? : RosterEvent → Option (Processor × WorkUnit)
  | .submitted processor u => some (processor, u)
  | _ => none

/-- The place of the unit that takes a slot. -/
def start? : RosterEvent → Option Nat
  | .started place => some place
  | _ => none

/-- The place of the unit that gets its outcome. -/
def end? : RosterEvent → Option Nat
  | .finished place => some place
  | .refused place => some place
  | _ => none

/-- The place of the unit that loses its handle. -/
def drop? : RosterEvent → Option Nat
  | .dropped place => some place
  | _ => none

/-- The pool moves by itself; nobody has to submit, end or close anything. -/
def isOwn : RosterEvent → Bool
  | .started _ => true
  | .refused _ => true
  | _ => false

end RosterEvent

/-- The units submitted, in order; the place of a unit is its position here. -/
def submissionsOf (es : List RosterEvent) : List (Processor × WorkUnit) := es.filterMap (·.submission?)

/-- The places of the units that took a slot, in the order in which they did. -/
def startsOf (es : List RosterEvent) : List Nat := es.filterMap (·.start?)

/-- The places of the units that got an outcome, once for each time. -/
def endsOf (es : List RosterEvent) : List Nat := es.filterMap (·.end?)

namespace Pool

/-- What an event does to the pool, if it can happen. -/
def act? (p : Pool) : RosterEvent → Option Pool
  | .submitted processor u => some (p.submit processor u)
  | .started place =>
    match p.start? with
    | some (first, q) => if first = place then some q else none
    | none => none
  | .finished place => p.finish? place
  | .refused place => p.refuseAt? place
  | .closed => some p.close
  | .dropped _ => some p

end Pool

/-- A pool, and the units whose handle was dropped. -/
structure Roster where
  pool : Pool
  dropped : List Nat := []

namespace Roster

def ofSize (n : Nat) : Roster := { pool := .ofSize n }

def step? (w : Roster) (e : RosterEvent) : Option Roster :=
  (w.pool.act? e).map fun pool => { pool, dropped := e.drop?.toList ++ w.dropped }

def run? : Roster → List RosterEvent → Option Roster
  | w, [] => some w
  | w, e :: es => (w.step? e).bind fun v => run? v es

/-- What the handle of a unit gives: nothing before the unit has ended, or once the handle was dropped. -/
def outcome? (w : Roster) (place : Nat) : Option UnitOutcome :=
  if place ∈ w.dropped then none else w.pool.outcome? place

/-- Nothing more moves by itself. -/
def AtRest (w : Roster) : Prop := ∀ e, e.isOwn = true → w.step? e = none

end Roster

namespace Pool

variable {p q : Pool} {e : RosterEvent} {place : Nat}

theorem start?_eq_some : p.start? = some (place, q) ↔ p.closed = false ∧ 0 < p.free ∧
    p.firstWaiting? = some place ∧ q = { p.setStage place .running with free := p.free - 1 } := by
  unfold start?
  cases hc : p.closed with
  | true => simp
  | false =>
    by_cases hf : p.free = 0
    · simp [hf]
    · simp only [Bool.false_or, decide_eq_true_eq, hf, ↓reduceIte, Option.map_eq_some_iff, Prod.mk.injEq,
        true_and, Nat.pos_of_ne_zero hf]
      constructor
      · rintro ⟨first, hfirst, rfl, rfl⟩
        exact ⟨hfirst, rfl⟩
      · rintro ⟨hfirst, rfl⟩
        exact ⟨place, hfirst, rfl, rfl⟩

/-- The unit that takes a slot waits, and nobody before it does. -/
theorem act?_started (h : p.act? (.started place) = some q) :
    p.start? = some (place, q) ∧ (∃ t, p.tasks[place]? = some t ∧ t.stage = .waiting) ∧
      ∀ i < place, ∀ t, p.tasks[i]? = some t → t.stage ≠ .waiting := by
  simp only [act?] at h
  cases hs : p.start? with
  | none => simp [hs] at h
  | some started =>
    obtain ⟨first, q'⟩ := started
    simp only [hs, Option.ite_none_right_eq_some, Option.some.injEq] at h
    obtain ⟨rfl, rfl⟩ := h
    have hfirst := (start?_eq_some.mp hs).2.2.1
    refine ⟨rfl, firstWaiting?_waiting hfirst, fun i hi t ht hwaiting => ?_⟩
    obtain ⟨_, -, hbefore⟩ := List.findIdx?_eq_some_iff_getElem.mp hfirst
    obtain ⟨hlt, rfl⟩ := List.getElem?_eq_some_iff.mp ht
    exact hbefore i hi ((isWaiting_iff _).mpr hwaiting)

theorem act?_moved (h : p.act? e = some q) : p.Moved q := by
  cases e with
  | submitted processor u =>
    cases h
    exact .submitted processor u
  | started place => exact .stepped _ (start?_startAt? (act?_started h).1)
  | finished place => exact .stepped (.finished place) h
  | refused place => exact .stepped (.refused place) h
  | closed =>
    cases h
    cases hc : p.closed with
    | true =>
      have hsame : p.close = p := by
        obtain ⟨size, free, closed, tasks⟩ := p
        cases hc
        rfl
      rw [hsame]
      exact .unchanged
    | false => exact .stepped .closed (by simp [step?, hc])
  | dropped place =>
    cases h
    exact .unchanged

theorem size_moved (h : p.Moved q) : q.size = p.size := by
  cases h with
  | unchanged => rfl
  | submitted processor u => rfl
  | stepped e hs =>
    cases e with
    | started place =>
      obtain ⟨t, -, -, -, -, rfl⟩ := startAt?_eq_some.mp hs
      rfl
    | finished place =>
      obtain ⟨t, -, -, rfl⟩ := finish?_eq_some.mp hs
      rfl
    | refused place =>
      obtain ⟨t, -, -, -, rfl⟩ := refuseAt?_eq_some.mp hs
      rfl
    | closed =>
      simp only [step?] at hs
      split at hs
      · cases hs
      · cases hs
        rfl

end Pool

namespace Roster

variable {w v u : Roster} {es fs : List RosterEvent} {e : RosterEvent}

theorem step?_eq_some : w.step? e = some v ↔
    w.pool.act? e = some v.pool ∧ v.dropped = e.drop?.toList ++ w.dropped := by
  simp only [step?, Option.map_eq_some_iff]
  constructor
  · rintro ⟨pool, hpool, rfl⟩
    exact ⟨hpool, rfl⟩
  · rintro ⟨hpool, hdropped⟩
    exact ⟨v.pool, hpool, by rw [← hdropped]⟩

theorem run?_append : w.run? (es ++ fs) = (w.run? es).bind fun v => v.run? fs := by
  induction es generalizing w with
  | nil => rfl
  | cons e es ih =>
    simp only [List.cons_append, run?, Option.bind_assoc]
    exact Option.bind_congr fun v _ => ih

/-- What holds before any event, and is kept by every event that can happen, holds of what happened. -/
theorem run?_induction {I : List RosterEvent → Roster → Prop} {start : Roster} (base : I [] start)
    (step : ∀ {es w e v}, I es w → w.step? e = some v → I (es ++ [e]) v) (h : start.run? es = some w) :
    I es w := by
  induction es using List.reverseRecOn generalizing w with
  | nil =>
    cases h
    exact base
  | append_singleton es e ih =>
    rw [run?_append] at h
    obtain ⟨v, hv, hlast⟩ := Option.bind_eq_some_iff.mp h
    obtain ⟨u, hu, hnil⟩ := Option.bind_eq_some_iff.mp hlast
    cases hnil
    exact step (ih hv) hu

end Roster
end FrameStream
