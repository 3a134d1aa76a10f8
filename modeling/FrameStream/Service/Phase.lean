import FrameStream.Message
import FrameStream.Pool
import FrameStream.Registry
import FrameStream.Resource
import FrameStream.Service.Config

/-!
# The phases of a request

A request is refused or acknowledged, its resource is opened, and its units are read, processed and sent in
order, at most a window of them at once. `Phase` says where a request stands; each function below takes it
one step further, given what came of the thing it waits for: a message that was delivered or not, a
resource that opened or not, a read, a unit that ended.

The step `Dispatch.refill` looks at the channel and decides on the next read at once; the read itself is a
step of its own.
-/

namespace FrameStream

/-- How the units of a job came to an end. -/
inductive DispatchEnd where
  /-- Every unit was delivered. -/
  | completed
  /-- The client went away. -/
  | channelClosed
  /-- The resource failed; the client was told after all earlier units. -/
  | resourceFailed
  deriving DecidableEq, Repr, Inhabited

inductive JobOutcome where
  | rejected (e : StreamError)
  | unavailable (e : StreamError)
  /-- The client went away before the job produced anything. -/
  | channelClosed
  | finished (e : DispatchEnd) (emitted : Nat)
  deriving DecidableEq, Repr, Inhabited

/-- A unit that was submitted: its index, and its place in the pool. -/
structure Flight where
  index : SequenceIndex
  place : Nat
  deriving DecidableEq, Repr, Inhabited

/-- The units of one job on their way. -/
structure Dispatch where
  job : Job
  processor : Processor
  /-- The units that may be out at once. -/
  window : Nat
  producer : Producer
  /-- Units submitted and not yet awaited, in order. -/
  inFlight : List Flight := []
  /-- Unit messages delivered. -/
  emitted : Nat := 0
  /-- Nothing more will be produced. -/
  exhausted : Bool := false
  readError : Option StreamError := none

inductive Phase where
  /-- About to tell the client of a refusal. -/
  | rejecting (key : Option String) (e : StreamError)
  /-- About to acknowledge the job. -/
  | acknowledging (job : Job) (p : Processor)
  /-- About to open the resource. -/
  | opening (job : Job) (p : Processor)
  /-- About to tell the client that the resource cannot be opened. -/
  | reporting (job : Job) (e : StreamError)
  /-- About to look whether another unit is to be read. -/
  | refilling (d : Dispatch)
  /-- Reading. -/
  | reading (d : Dispatch)
  /-- Waiting for the unit in front. -/
  | awaiting (d : Dispatch) (f : Flight)
  /-- About to send the message of a unit. -/
  | sending (d : Dispatch) (m : Message)
  /-- About to tell the client that the resource failed. -/
  | failing (d : Dispatch) (e : StreamError)
  | returned (o : JobOutcome)

namespace Dispatch

/-- The end of a job, with what was delivered so far. -/
def ending (d : Dispatch) (e : DispatchEnd) : Phase := .returned (.finished e d.emitted)

/-- Waits for the unit in front, or comes to the end if there is none. -/
def front (d : Dispatch) : Phase :=
  match d.inFlight with
  | f :: rest => .awaiting { d with inFlight := rest } f
  | [] =>
    match d.readError with
    | some e => .failing d e
    | none => d.ending .completed

def hasRoom (d : Dispatch) : Bool := !d.exhausted && d.inFlight.length < d.window

/-- Looks at the window and, if there is room, at the channel; then starts a read or goes to the front. -/
def refill (d : Dispatch) (closed : Bool) : Phase :=
  if d.hasRoom then
    if closed then d.ending .channelClosed
    else if d.producer.stopped then
      { d with exhausted := true, producer := { d.producer with finished := true } }.front
    else .reading d
  else d.front

/-- What follows from a read: a unit to submit, whose place will be `place`, or the end of reading. -/
def absorb (d : Dispatch) (place : Nat) : Option WorkUnit × Dispatch :=
  let (next, producer) := d.producer.take
  let d := { d with producer }
  match next with
  | .unit u => (some u, { d with inFlight := d.inFlight ++ [⟨u.index, place⟩] })
  | .ended => (none, { d with exhausted := true })
  | .failed e => (none, { d with exhausted := true, readError := some e })

/-- The message for the unit of an index that ended. -/
def message (d : Dispatch) (index : SequenceIndex) : UnitOutcome → Message
  | .done payload => .result d.job.key index payload
  | .failed e => .unitError d.job.key index e.reason
  | .aborted => .unitError d.job.key index "processing task aborted"

end Dispatch

/-- The text for a client that has gone away. -/
def closedByPeer : String := "channel closed by peer"

namespace Phase

/-- Judges a request; nothing is sent yet. -/
def start (r : Request) (config : ServiceConfig) (registry : Registry) : Phase :=
  match r.accept config.defaultModel registry with
  | .ok (job, p) => .acknowledging job p
  | .error refusal => .rejecting r.key refusal.error

/-- The message that is about to be sent. -/
def message? : Phase → Option Message
  | .rejecting key e => some (.rejected key e.message)
  | .acknowledging job _ => some (.accepted job.key)
  | .reporting job e => some (.error job.key e.message)
  | .sending _ m => some m
  | .failing d e => some (.error d.job.key e.message)
  | _ => none

/-- What follows when the message was delivered, or was not because the channel is closed. -/
def answered (delivered : Bool) : Phase → Phase
  | .rejecting _ e => .returned (.rejected e)
  | .acknowledging job p => if delivered then .opening job p else .returned .channelClosed
  | .reporting _ e => if delivered then .returned (.unavailable e) else .returned .channelClosed
  | .sending d _ => if delivered then .refilling { d with emitted := d.emitted + 1 } else d.ending .channelClosed
  | .failing d _ => if delivered then d.ending .resourceFailed else d.ending .channelClosed
  | p => p

/-- The reference that is about to be opened. -/
def reference? : Phase → Option String
  | .opening job _ => some job.resource
  | _ => none

/-- What follows when the resource opened or did not. -/
def opened (config : ServiceConfig) (result : Except StreamError Resource) : Phase → Phase
  | .opening job p =>
    match result with
    | .ok resource =>
      .refilling {
        job, processor := p, window := config.openWindow
        producer := { resource, limit := job.requested } }
    | .error e => .reporting job e
  | p => p

/-- What follows from a look at the channel. -/
def looked (closed : Bool) : Phase → Phase
  | .refilling d => d.refill closed
  | p => p

/-- What follows when the read is done; a frame is submitted to the pool. -/
def readDone (pool : Pool) : Phase → Phase × Pool
  | .reading d =>
    match d.absorb pool.tasks.length with
    | (some u, d) => (.refilling d, pool.submit d.processor u)
    | (none, d) => (.refilling d, pool)
  | p => (p, pool)

/-- What follows when the unit in front has ended. -/
def unitEnded (outcome : UnitOutcome) : Phase → Phase
  | .awaiting d f => .sending d (d.message f.index outcome)
  | p => p

/-- The outcome of a request that has one. -/
def outcome? : Phase → Option JobOutcome
  | .returned o => some o
  | _ => none

end Phase
end FrameStream
