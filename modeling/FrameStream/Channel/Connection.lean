import FrameStream.Channel.Job

/-!
# Connections

A connection is served by two loops. The receive loop takes what the client sends, one thing after another:
it refuses a request or starts its job, and leaves when the client does or when the channel is cancelled.
The forwarding loop takes frames out of the queue and writes them; it stops after a closing frame, after a
write that fails, and when nothing can come any more.
-/

namespace FrameStream

inductive Inbound where
  /-- The bytes of a request. -/
  | request (text : Bytes)
  | ping (payload : Bytes)
  | pong
  /-- The client says goodbye, with a code and a reason or without. -/
  | close (reason : Option (Nat × String))
  /-- The connection is lost. -/
  | lost
  deriving DecidableEq, Repr

def Inbound.parting : Inbound → Bool
  | .close _ => true
  | .lost => true
  | _ => false

inductive Receiving where
  | listening
  /-- About to refuse a request. -/
  | refusing (m : Message)
  /-- The refusal waits for room under this number. -/
  | waiting (ticket : Nat)
  | left
  deriving Repr

inductive Forwarding where
  | idle
  | writing (f : OutFrame)
  | stopped
  deriving DecidableEq, Repr

structure Connection where
  conn : String
  channel : ChannelNumber
  /-- What the client has sent and nobody has taken yet. -/
  inbound : List Inbound := []
  receiving : Receiving := .listening
  forwarding : Forwarding := .idle

namespace Connection

def finished (c : Connection) : Bool :=
  match c.receiving, c.forwarding with
  | .left, .stopped => true
  | _, _ => false

def frame? (c : Connection) : Option OutFrame :=
  match c.forwarding with
  | .writing f => some f
  | _ => none

/-- The client has sent one more thing. -/
def arrive (c : Connection) (i : Inbound) : Connection := { c with inbound := c.inbound ++ [i] }

/-- The receive loop leaves; the channel is cancelled and forgotten, and the loop lets go of it. -/
def leave (c : Connection) (b : ChannelBook) : Connection × ChannelBook :=
  ({ c with receiving := .left }, (b.closeGuard c.conn c.channel).modify c.channel Outbound.dropSender)

/-- The receive loop leaves a cancelled channel. -/
def leaveIfCancelled? (c : Connection) (b : ChannelBook) : Option (Connection × ChannelBook) :=
  match c.receiving with
  | .listening => if b.cancelled c.channel then some (c.leave b) else none
  | _ => none

/-- The refusal got through or did not; either way the loop listens again. -/
def refused (c : Connection) : Connection := { c with receiving := .listening }

/-- The refusal is handed to the queue. -/
def refuse? (c : Connection) (b : ChannelBook) (ticket : Nat) : Option (Connection × ChannelBook) :=
  match c.receiving with
  | .refusing m =>
    let (d, b) := b.send c.channel ticket m.text
    some (match d with
      | .waits => { c with receiving := .waiting ticket }
      | _ => c.refused, b)
  | _ => none

/-- What follows from a request: a refusal, or a job that holds the slot. -/
def request (c : Connection) (b : ChannelBook) (config : ServiceConfig) (registry : Registry)
    (text : Bytes) : Connection × ChannelBook × Option ChannelJob :=
  match Request.parse text with
  | .error e => ({ c with receiving := .refusing (.rejected none e.error.message) }, b, none)
  | .ok r =>
    match b.beginJob c.conn (r.key.getD "") with
    | .error e => ({ c with receiving := .refusing (.rejected r.key e.message) }, b, none)
    | .ok (id, b) =>
      (c, b.modify c.channel Outbound.addSender,
        some { conn := c.conn, channel := c.channel, id, phase := Phase.start r config registry })

/-- The receive loop takes the next thing the client has sent. -/
def take? (c : Connection) (b : ChannelBook) (config : ServiceConfig) (registry : Registry) :
    Option (Inbound × Connection × ChannelBook × Option ChannelJob) :=
  match c.receiving, c.inbound with
  | .listening, i :: rest =>
    let c := { c with inbound := rest }
    some (i,
      if i.parting then
        let (c, b) := c.leave b
        (c, b, none)
      else
        match i with
        | .request text => c.request b config registry text
        | _ => (c, b, none))
  | _, _ => none

/-- The forwarding loop stops, and what is queued is lost. -/
def stop (c : Connection) (b : ChannelBook) : Connection × ChannelBook :=
  ({ c with forwarding := .stopped }, b.modify c.channel Outbound.dropReceiver)

/-- The forwarding loop takes the next frame, or stops when none can come. -/
def forward? (c : Connection) (b : ChannelBook) : Option (Connection × ChannelBook) :=
  match c.forwarding with
  | .idle =>
    match b.take? c.channel with
    | some (f, b) => some ({ c with forwarding := .writing f }, b)
    | none => if b.ended c.channel then some (c.stop b) else none
  | _ => none

/-- The frame is written; after a closing frame the loop stops. -/
def written (c : Connection) (b : ChannelBook) : Connection × ChannelBook :=
  match c.forwarding with
  | .writing .close => c.stop b
  | .writing _ => ({ c with forwarding := .idle }, b)
  | _ => (c, b)

/-- The frame cannot be written; the channel is cancelled and the loop stops. -/
def writeFailed (c : Connection) (b : ChannelBook) : Connection × ChannelBook :=
  c.stop (b.cancel c.channel)

end Connection
end FrameStream
