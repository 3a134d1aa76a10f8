import FrameStream.Frame
import FrameStream.StreamError

/-!
# Resources and producers

A resource is read front to back; a read gives a frame, or the end, or an error. A producer numbers the
frames of one resource and stops at the requested count, at the end, or at an error, whichever comes first;
once it has stopped it reads no more. The number of reads is kept with the resource.
-/

namespace FrameStream

/-- What a read of a resource gives. -/
inductive ReadOutcome where
  | frame (f : Frame)
  | ended
  | failed (e : StreamError)
  deriving DecidableEq, Repr, Inhabited

/-- An open resource: what its next reads give, and what every read after those gives. -/
structure Resource where
  outcomes : List ReadOutcome
  thereafter : ReadOutcome := .ended
  /-- The number of frames the resource claims to have. -/
  hint : Option Nat := none
  /-- The reads made so far. -/
  reads : Nat := 0
  deriving Repr, Inhabited

namespace Resource

def peek (r : Resource) : ReadOutcome := r.outcomes.headD r.thereafter

def advance (r : Resource) : Resource := { r with outcomes := r.outcomes.tail, reads := r.reads + 1 }

end Resource

inductive NextUnit where
  | unit (u : WorkUnit)
  | ended
  | failed (e : StreamError)
  deriving DecidableEq, Repr, Inhabited

structure Producer where
  resource : Resource
  /-- The most units to produce. -/
  limit : Option Nat
  /-- The units produced so far, and so the index of the next. -/
  produced : SequenceIndex := 0
  finished : Bool := false
  deriving Repr, Inhabited

namespace Producer

def atLimit (p : Producer) : Bool :=
  match p.limit with
  | some n => n ≤ p.produced
  | none => false

def stopped (p : Producer) : Bool := p.finished || p.atLimit

/-- The step that follows from a read, and the producer after it. -/
def take (p : Producer) : NextUnit × Producer :=
  let rest := { p with resource := p.resource.advance }
  match p.resource.peek with
  | .frame f => (.unit ⟨p.produced, f⟩, { rest with produced := p.produced + 1 })
  | .ended => (.ended, { rest with finished := true })
  | .failed e => (.failed e, { rest with finished := true })

/-- The next step; a producer that has stopped does not read. -/
def next (p : Producer) : NextUnit × Producer :=
  if p.stopped then (.ended, { p with finished := true }) else p.take

end Producer
end FrameStream
