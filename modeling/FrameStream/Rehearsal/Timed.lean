import FrameStream.NameTable
import FrameStream.Rehearsal.Scripted
import FrameStream.Service.Phase

/-!
# Jobs on a virtual clock

In a rehearsal everything takes no time, but for the delays its script names. `Shared` holds what jobs
share: the pool, the times at which running units end, and a log. `Shared.move?` and `TimedPhase.move?` make
one move that needs no time; when none is left the clock goes on to the next time something is due.
-/

namespace FrameStream.Rehearsal

structure Setting where
  config : ServiceConfig
  registry : Registry
  provider : String → ScriptedResource
  /-- The processors whose calls are logged. -/
  traced : List String := []

inductive LogKind where
  | read
  | start
  | finish
  | send
  deriving DecidableEq, Repr

/-- The word for a kind of entry. -/
def LogKind.word : LogKind → String
  | .read => "read"
  | .start => "start"
  | .finish => "finish"
  | .send => "send"

/-- The place of a kind among entries of one time. -/
def LogKind.rank : LogKind → Nat
  | .read => 0
  | .start => 1
  | .finish => 2
  | .send => 3

structure LogEntry where
  time : Nat
  kind : LogKind
  name : String
  index : Option SequenceIndex
  deriving DecidableEq, Repr

namespace LogEntry

/-- The order of indices: no index comes first. -/
def indexLe : Option SequenceIndex → Option SequenceIndex → Bool
  | none, _ => true
  | some _, none => false
  | some i, some j => i ≤ j

/-- The order of the log: by time, kind, name and index. -/
def le (a b : LogEntry) : Bool :=
  if a.time ≠ b.time then a.time < b.time
  else if a.kind.rank ≠ b.kind.rank then a.kind.rank < b.kind.rank
  else if a.name ≠ b.name then a.name < b.name
  else indexLe a.index b.index

end LogEntry

structure Shared where
  pool : Pool
  /-- The times at which running units end, with their places. -/
  due : List (Nat × Nat) := []
  /-- The latest entry comes first. -/
  log : List LogEntry := []
  /-- The reads made of every reference. -/
  reads : NameTable Nat := []
  /-- The references opened, the latest first. -/
  opened : List String := []

namespace Shared

/-- The shared state with one more entry in its log. -/
def note (s : Shared) (time : Nat) (kind : LogKind) (name : String) (index : Option SequenceIndex) :
    Shared :=
  { s with log := ⟨time, kind, name, index⟩ :: s.log }

/-- An entry about a task, if its processor is logged. -/
def noteTask (s : Shared) (setting : Setting) (time : Nat) (kind : LogKind) (t : Task) : Shared :=
  let name := t.processor.metadata.name
  if setting.traced.contains name then s.note time kind name (some t.unit.index) else s

def readsOf (s : Shared) (reference : String) : Nat := (s.reads.get? reference).getD 0

def start? (s : Shared) (setting : Setting) (now : Nat) : Option Shared :=
  match s.pool.start? with
  | none => none
  | some (place, pool) =>
    match pool.tasks[place]? with
    | none => none
    | some t =>
      let s := { s with pool, due := (now + t.processor.latency t.unit, place) :: s.due }
      some (s.noteTask setting now .start t)

/-- A unit ends whose time has come. -/
def finish? (s : Shared) (setting : Setting) (now : Nat) : Option Shared :=
  match s.due.find? (·.1 ≤ now) with
  | none => none
  | some (time, place) =>
    match s.pool.tasks[place]?, s.pool.finish? place with
    | some t, some pool =>
      let s := { s with pool, due := s.due.erase (time, place) }
      some (s.noteTask setting now .finish t)
    | _, _ => none

def move? (s : Shared) (setting : Setting) (now : Nat) : Option Shared :=
  match s.start? setting now with
  | some s => some s
  | none =>
    match s.finish? setting now with
    | some s => some s
    | none => s.pool.refuse?.map fun pool => { s with pool }

/-- The times at which something is due. -/
def times (s : Shared) : List Nat := s.due.map (·.1)

end Shared

/-- A phase, and the time at which the delay ends that it is in. -/
structure TimedPhase where
  phase : Phase
  until? : Option Nat := none

namespace TimedPhase

def delayed (t : TimedPhase) (now : Nat) : Bool :=
  match t.until? with
  | some time => now < time
  | none => false

def openResource (setting : Setting) (s : Shared) (p : Phase) (reference : String) :
    TimedPhase × Shared :=
  (⟨p.opened setting.config (setting.provider reference).opening, none⟩,
    { s with opened := reference :: s.opened })

def completeRead (s : Shared) (now : Nat) (d : Dispatch) : TimedPhase × Shared :=
  let reference := d.job.resource
  let s := s.note now .read reference (some d.producer.produced)
  let (phase, pool) := (Phase.reading d).readDone s.pool
  (⟨phase, none⟩, { s with pool, reads := s.reads.insert reference (s.readsOf reference + 1) })

/-- One move that needs no message to be sent; `closed` is what the channel says of itself. -/
def move? (t : TimedPhase) (setting : Setting) (now : Nat) (closed : Bool) (s : Shared) :
    Option (TimedPhase × Shared) :=
  if t.delayed now then none
  else
    match t.phase with
    | .opening job _ => some (openResource setting s t.phase job.resource)
    | .refilling _ => some (⟨t.phase.looked closed, none⟩, s)
    | .reading d =>
      let delay := (setting.provider d.job.resource).delay
      if t.until?.isNone ∧ delay ≠ 0 then some (⟨t.phase, some (now + delay)⟩, s)
      else some (completeRead s now d)
    | .awaiting _ f => (s.pool.outcome? f.place).map fun o => (⟨t.phase.unitEnded o, none⟩, s)
    | _ => none

end TimedPhase

/-- The earliest of some times after `now`. -/
def earliest? (now : Nat) (times : List Nat) : Option Nat := (times.filter (now < ·)).min?

/-- The most moves a request of so many frames can make, times at which something is due included. -/
def movesFor (frames : Nat) : Nat := 16 * (frames + 4)

/-- The most frames a request can read. -/
def Setting.framesOf (setting : Setting) (text : Bytes) : Nat :=
  match Request.parse text with
  | .error _ => 0
  | .ok r =>
    match (setting.provider (r.resource.getD "")).opening with
    | .ok resource => resource.outcomes.length
    | .error _ => 0

end FrameStream.Rehearsal
