import FrameStream.Pool

/-!
# Rehearsing the pool

A rehearsal drives a pool with a script. A running unit ends once its gate is open; after every step all
that can move has moved, and the step reports the free slots, the running units and those that ended.
-/

namespace FrameStream.Rehearsal

inductive ScriptedEnd where
  | payload
  | failure
  | abortion
  deriving DecidableEq, Repr

inductive PoolStep where
  | submit (index : SequenceIndex) (ends : ScriptedEnd)
  /-- Opens the gate of a unit, for good. -/
  | finish (index : SequenceIndex)
  /-- Nobody waits for the unit any more. -/
  | detach (index : SequenceIndex)
  | close
  | idle
  deriving DecidableEq, Repr

structure PoolReport where
  available : Nat
  running : List SequenceIndex
  ended : List (SequenceIndex × UnitOutcome)

structure Workers where
  pool : Pool
  openGates : List SequenceIndex := []
  /-- Units that nobody waits for, or whose end was reported. -/
  silent : List SequenceIndex := []

def ScriptedEnd.outcome (index : SequenceIndex) : ScriptedEnd → UnitOutcome
  | .payload => .done (.object [("index", .nat index)])
  | .failure => .failed ⟨index, "scripted failure"⟩
  | .abortion => .aborted

/-- A processor whose units end as the script says. -/
def scriptedEnding (e : ScriptedEnd) : Processor where
  metadata := { name := "", description := "", inputs := [], outputs := [] }
  process u := e.outcome u.index

namespace Workers

/-- The place of a running unit whose gate is open. -/
def released? (w : Workers) : Option Nat :=
  w.pool.tasks.findIdx? fun t => t.stage.isRunning && w.openGates.contains t.unit.index

def move? (w : Workers) : Option Pool :=
  match w.pool.start? with
  | some (_, p) => some p
  | none =>
    match w.released? with
    | some place => w.pool.finish? place
    | none => w.pool.refuse?

/-- All moves that are left, `fuel` at most. -/
def settle : Nat → Workers → Workers
  | 0, w => w
  | fuel + 1, w =>
    match w.move? with
    | some pool => settle fuel { w with pool }
    | none => w

/-- A task starts once and ends once. -/
def moves (w : Workers) : Nat := 2 * w.pool.tasks.length + 1

/-- The effect of a step, before anything moves. -/
def apply (w : Workers) : PoolStep → Workers
  | .submit index ends => { w with pool := w.pool.submit (scriptedEnding ends) ⟨index, ⟨1, 1, []⟩⟩ }
  | .finish index => { w with openGates := index :: w.openGates }
  | .detach index => { w with silent := index :: w.silent }
  | .close => { w with pool := w.pool.close }
  | .idle => w

/-- Units that ended and were not reported, in the order of their indices. -/
def unreported (w : Workers) : List (SequenceIndex × UnitOutcome) :=
  (w.pool.tasks.filterMap fun t =>
    match t.stage.outcome? with
    | some o => if w.silent.contains t.unit.index then none else some (t.unit.index, o)
    | none => none).mergeSort fun a b => a.1 ≤ b.1

def report (w : Workers) : PoolReport where
  available := w.pool.free
  running := ((w.pool.tasks.filter (·.stage.isRunning)).map (·.unit.index)).mergeSort (· ≤ ·)
  ended := w.unreported

/-- One step of the script and its report. -/
def step (w : Workers) (s : PoolStep) : PoolReport × Workers :=
  let w := w.apply s
  let w := settle w.moves w
  let r := w.report
  (r, { w with silent := r.ended.map (·.1) ++ w.silent })

end Workers
end FrameStream.Rehearsal
