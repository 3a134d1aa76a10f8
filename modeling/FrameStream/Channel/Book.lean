import FrameStream.Channel.Outbound
import FrameStream.NameTable

/-!
# The book of open channels

Every open channel stands in the book under the name of its connection, with the job it streams, if any. A
channel that was ever opened has a number; its queue outlives its entry, for frames may still be in it.
A channel streams one job at a time, and no two jobs have the same id.
-/

namespace FrameStream

/-- The number of a job, in the order in which jobs began on any channel. -/
abbrev JobId := Nat

/-- The number of a channel, in the order in which channels were opened. -/
abbrev ChannelNumber := Nat

/-- The job that holds the slot of a channel. -/
structure ActiveJob where
  id : JobId
  key : String
  deriving DecidableEq, Repr, Inhabited

structure BookEntry where
  channel : ChannelNumber
  active : Option ActiveJob := none
  deriving DecidableEq, Repr, Inhabited

/-- Why a job cannot begin on a channel. -/
inductive BeginError where
  /-- Another job holds the slot; its key. -/
  | busy (active : String)
  | notOpen
  deriving DecidableEq, Repr

/-- The text for a job that cannot begin. -/
def BeginError.message : BeginError → String
  | .busy _ => "a job is already active on this channel"
  | .notOpen => "channel is not open"

/-- All channels ever opened, and which of them are open. -/
structure ChannelBook where
  /-- The depth of every queue. -/
  depth : Nat
  channels : List Outbound := []
  entries : NameTable BookEntry := []
  nextId : JobId := 1
  deriving DecidableEq, Repr, Inhabited

namespace ChannelBook

/-- A book without channels, whose queues have at least one place. -/
def ofDepth (n : Nat) : ChannelBook := { depth := max n 1 }

def channel? (b : ChannelBook) (n : ChannelNumber) : Option Outbound := b.channels[n]?

/-- The book with the queue of a channel changed. -/
def modify (b : ChannelBook) (n : ChannelNumber) (f : Outbound → Outbound) : ChannelBook :=
  { b with channels := b.channels.modify n f }

def count (b : ChannelBook) : Nat := b.entries.length

/-- Opens a channel under a name and gives its number. An entry under the same name is forgotten, and its
channel stays as it is. -/
def openChannel (b : ChannelBook) (conn : String) : ChannelNumber × ChannelBook :=
  let b := match b.entries.get? conn with
    | some e => b.modify e.channel Outbound.dropSender
    | none => b
  let n := b.channels.length
  (n, { b with
    channels := b.channels ++ [{ Outbound.ofDepth b.depth with senders := 2 }]
    entries := b.entries.insert conn { channel := n } })

/-- Cancels and forgets the channel under a name; whether there was one. -/
def close (b : ChannelBook) (conn : String) : Bool × ChannelBook :=
  match b.entries.get? conn with
  | some e =>
    (true, { b with entries := b.entries.erase conn }.modify e.channel fun o => o.cancel.dropSender)
  | none => (false, b)

/-- A job takes the slot of a channel. -/
def beginJob (b : ChannelBook) (conn key : String) : Except BeginError (JobId × ChannelBook) :=
  match b.entries.get? conn with
  | none => .error .notOpen
  | some e =>
    match e.active with
    | some job => .error (.busy job.key)
    | none =>
      .ok (b.nextId, { b with
        entries := b.entries.insert conn { e with active := some ⟨b.nextId, key⟩ }
        nextId := b.nextId + 1 })

/-- A job gives back the slot of a channel; whether it held it. -/
def endJob (b : ChannelBook) (conn : String) (id : JobId) : Bool × ChannelBook :=
  match b.entries.get? conn with
  | none => (false, b)
  | some e =>
    match e.active with
    | some job =>
      if job.id = id then (true, { b with entries := b.entries.insert conn { e with active := none } })
      else (false, b)
    | none => (false, b)

/-- The key of the job that holds the slot of a channel. -/
def activeKey? (b : ChannelBook) (conn : String) : Option String :=
  match b.entries.get? conn with
  | some e => e.active.map (·.key)
  | none => none

/-- The book with the queue of every open channel changed. -/
def modifyOpen (b : ChannelBook) (f : Outbound → Outbound) : ChannelBook :=
  b.entries.foldl (fun b e => b.modify e.2.channel f) b

/-- Offers a ping to every open channel. -/
def pingAll (b : ChannelBook) : ChannelBook := b.modifyOpen (·.offer .ping)

/-- Offers a closing frame to every open channel, cancels it, and forgets them all. -/
def shutdownAll (b : ChannelBook) : ChannelBook :=
  { b.modifyOpen fun o => (o.offer .close).cancel.dropSender with entries := [] }

/-- Cancels a channel that may or may not stand in the book. -/
def cancel (b : ChannelBook) (n : ChannelNumber) : ChannelBook := b.modify n Outbound.cancel

/-- The guard of a channel cancels it, and forgets whatever channel stands under its name. -/
def closeGuard (b : ChannelBook) (conn : String) (n : ChannelNumber) : ChannelBook :=
  ((b.cancel n).close conn).2

def send (b : ChannelBook) (n : ChannelNumber) (ticket : Nat) (text : String) : Delivery × ChannelBook :=
  match b.channel? n with
  | some o =>
    let (d, o) := o.send ticket text
    (d, b.modify n fun _ => o)
  | none => (.closed, b)

/-- Nothing gets through a channel any more. -/
def closed (b : ChannelBook) (n : ChannelNumber) : Bool :=
  match b.channel? n with
  | some o => o.closed
  | none => true

def cancelled (b : ChannelBook) (n : ChannelNumber) : Bool :=
  match b.channel? n with
  | some o => o.cancelled
  | none => true

/-- Takes the first frame out of the queue of a channel. -/
def take? (b : ChannelBook) (n : ChannelNumber) : Option (OutFrame × ChannelBook) :=
  match b.channel? n with
  | some o => o.take?.map fun (f, o) => (f, b.modify n fun _ => o)
  | none => none

/-- Nothing is queued on a channel and nothing will be. -/
def ended (b : ChannelBook) (n : ChannelNumber) : Bool :=
  match b.channel? n with
  | some o => o.ended
  | none => true

/-- The message that has waited longest on a channel gets through or is turned away, if it can be. -/
def resume? (b : ChannelBook) (n : ChannelNumber) : Option (Nat × Bool × ChannelBook) :=
  match b.channel? n with
  | some o => o.resume?.map fun (ticket, delivered, o) => (ticket, delivered, b.modify n fun _ => o)
  | none => none

/-- The first channel on which somebody can go on who waited. -/
def resumeFirst? (b : ChannelBook) : Option (Nat × Bool × ChannelBook) :=
  (List.range b.channels.length).findSome? b.resume?

def waiting (b : ChannelBook) : Nat := b.channels.foldl (fun n o => n + o.waiting.length) 0

end ChannelBook
end FrameStream
