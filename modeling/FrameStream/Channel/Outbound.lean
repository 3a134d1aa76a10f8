/-!
# The outbound queue of a channel

Everything for one client goes through a queue of limited depth. A message waits for room; a ping or a
closing frame is dropped unless there is room at once and nobody waits. Once a channel is cancelled no
message is queued any more, and who waits is turned away, however much room there is.
-/

namespace FrameStream

inductive OutFrame where
  /-- The text of a message. -/
  | text (t : String)
  | ping
  | close
  deriving DecidableEq, Repr, Inhabited

inductive Delivery where
  | queued
  /-- The channel is closed. -/
  | closed
  /-- The message waits for room. -/
  | waits
  deriving DecidableEq, Repr

structure Outbound where
  depth : Nat
  queued : List OutFrame := []
  /-- The messages that wait for room, each under its number; the first has waited longest. -/
  waiting : List (Nat × String) := []
  cancelled : Bool := false
  /-- Somebody still takes frames out. -/
  receiving : Bool := true
  /-- Those who can still put frames in; whoever waits is counted apart. -/
  senders : Nat := 0
  deriving DecidableEq, Repr, Inhabited

namespace Outbound

/-- An empty queue of at least one place. -/
def ofDepth (n : Nat) : Outbound := { depth := max n 1 }

def closed (o : Outbound) : Bool := o.cancelled || !o.receiving

/-- A frame can be queued at once; those who wait come first. -/
def hasRoom (o : Outbound) : Bool := o.queued.length + o.waiting.length < o.depth

def push (o : Outbound) (f : OutFrame) : Outbound := { o with queued := o.queued ++ [f] }

/-- Sends a message, which waits under `ticket` if there is no room. -/
def send (o : Outbound) (ticket : Nat) (text : String) : Delivery × Outbound :=
  if o.closed then (.closed, o)
  else if o.hasRoom then (.queued, o.push (.text text))
  else (.waits, { o with waiting := o.waiting ++ [(ticket, text)] })

/-- Queues a frame if there is room at once. -/
def offer (o : Outbound) (f : OutFrame) : Outbound :=
  if o.receiving && o.hasRoom then o.push f else o

/-- The message that has waited longest takes the room there is, or is turned away if the channel is closed;
its number, and whether it got through. -/
def resume? (o : Outbound) : Option (Nat × Bool × Outbound) :=
  match o.waiting with
  | [] => none
  | (ticket, text) :: rest =>
    if o.closed then some (ticket, false, { o with waiting := rest })
    else if o.queued.length < o.depth then some (ticket, true, { o with waiting := rest }.push (.text text))
    else none

def take? (o : Outbound) : Option (OutFrame × Outbound) :=
  match o.queued with
  | [] => none
  | f :: rest => some (f, { o with queued := rest })

/-- Nothing is queued and nothing will be. -/
def ended (o : Outbound) : Bool := o.queued.isEmpty && o.waiting.isEmpty && o.senders = 0

/-- Nothing gets through from now on; what is queued stays. -/
def cancel (o : Outbound) : Outbound := { o with cancelled := true }

/-- Nobody takes frames out any more, and what is queued is lost. -/
def dropReceiver (o : Outbound) : Outbound := { o with receiving := false, queued := [] }

def addSender (o : Outbound) : Outbound := { o with senders := o.senders + 1 }

def dropSender (o : Outbound) : Outbound := { o with senders := o.senders - 1 }

end Outbound
end FrameStream
