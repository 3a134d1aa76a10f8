import FrameStream.Processor

/-!
# The pool of workers

All jobs share a fixed number of slots. A submitted unit waits for a slot, holds it while it is processed,
and gives it back however the processing ends. Slots are taken in the order of submission. A closed pool
gives no slot any more: who waits is refused, who runs may finish.

A task is known by its place in the order of submission.
-/

namespace FrameStream

inductive Stage where
  | waiting
  | running
  | ended (outcome : UnitOutcome)
  deriving Repr, Inhabited

namespace Stage

def isWaiting : Stage → Bool
  | .waiting => true
  | _ => false

def isRunning : Stage → Bool
  | .running => true
  | _ => false

/-- The outcome of a unit that has one. -/
def outcome? : Stage → Option UnitOutcome
  | .ended o => some o
  | _ => none

end Stage

structure Task where
  processor : Processor
  unit : WorkUnit
  stage : Stage := .waiting

/-- A pool of slots and everything submitted to it, in the order of submission. -/
structure Pool where
  size : Nat
  /-- The slots nobody holds. -/
  free : Nat
  closed : Bool := false
  tasks : List Task := []

namespace Pool

/-- A pool of at least one slot, all of them free. -/
def ofSize (n : Nat) : Pool := { size := max n 1, free := max n 1 }

/-- The outcome of a unit that the closed pool refused. -/
def refusal (u : WorkUnit) : UnitOutcome := .failed ⟨u.index, "worker pool is shut down"⟩

/-- The pool with one more unit waiting. Its place is the number of tasks before. -/
def submit (p : Pool) (processor : Processor) (u : WorkUnit) : Pool :=
  { p with tasks := p.tasks ++ [{ processor, unit := u }] }

/-- The place of the unit that has waited longest. -/
def firstWaiting? (p : Pool) : Option Nat := p.tasks.findIdx? (·.stage.isWaiting)

/-- The pool with the task at a place in another stage. -/
def setStage (p : Pool) (place : Nat) (s : Stage) : Pool :=
  { p with tasks := p.tasks.modify place fun t => { t with stage := s } }

/-- The unit that has waited longest takes a slot, if the pool is open and one is free. -/
def start? (p : Pool) : Option (Nat × Pool) :=
  if p.closed || p.free = 0 then none
  else p.firstWaiting?.map fun place => (place, { p.setStage place .running with free := p.free - 1 })

/-- The unit that has waited longest is refused, if the pool is closed. -/
def refuse? (p : Pool) : Option Pool :=
  if p.closed then
    match p.firstWaiting? with
    | none => none
    | some place => (p.tasks[place]?).map fun t => p.setStage place (.ended (refusal t.unit))
  else none

/-- The running unit at a place ends as its processor decides, and gives back its slot. -/
def finish? (p : Pool) (place : Nat) : Option Pool :=
  match p.tasks[place]? with
  | some t =>
    if t.stage.isRunning then
      some { p.setStage place (.ended (t.processor.process t.unit)) with free := p.free + 1 }
    else none
  | none => none

def close (p : Pool) : Pool := { p with closed := true }

/-- The outcome of the unit at a place, once it has ended. -/
def outcome? (p : Pool) (place : Nat) : Option UnitOutcome :=
  match p.tasks[place]? with
  | some t => t.stage.outcome?
  | none => none

def running (p : Pool) : Nat := p.tasks.countP (·.stage.isRunning)

end Pool
end FrameStream
