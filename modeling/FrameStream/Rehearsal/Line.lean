import FrameStream.Channel.Connection

/-!
# Lines

A line carries frames to one client through a pipe that holds so many bytes. A client that listens takes
them at once; a deaf one lets the pipe fill, and the frame that does not fit stays behind in part.
-/

namespace FrameStream.Rehearsal

inductive ClientFrame where
  | text (t : String)
  | ping
  | pong (payload : Bytes)
  | close (reason : Option (Nat × String))
  /-- The connection is over. -/
  | ended
  deriving DecidableEq, Repr

namespace ClientFrame

/-- The frame a client sees for a queued one. -/
def ofOut : OutFrame → ClientFrame
  | .text t => .text t
  | .ping => .ping
  | .close => .close none

/-- The bytes in front of a payload. -/
def headerSize (payload : Nat) : Nat := if payload < 126 then 2 else if payload < 65536 then 4 else 10

/-- The bytes of a payload; a code takes two. -/
def payloadSize : ClientFrame → Nat
  | .text t => t.utf8ByteSize
  | .pong payload => payload.length
  | .close (some (_, reason)) => 2 + reason.utf8ByteSize
  | _ => 0

/-- The bytes of a frame on a line. -/
def size (f : ClientFrame) : Nat := headerSize f.payloadSize + f.payloadSize

end ClientFrame

structure Line where
  /-- The bytes the pipe holds. -/
  capacity : Nat
  /-- The client takes what comes. -/
  listening : Bool
  /-- The bytes in the pipe. -/
  used : Nat := 0
  /-- The frames that are wholly in the pipe. -/
  held : List ClientFrame := []
  /-- The frames that are not, each with the bytes that are missing. -/
  unwritten : List (ClientFrame × Nat) := []
  /-- What the client has seen since the last report. -/
  seen : List ClientFrame := []
  /-- The client has said goodbye. -/
  parted : Bool := false
  /-- The server has heard the goodbye. -/
  answered : Bool := false
  /-- The client has vanished. -/
  vanished : Bool := false
  /-- The client has seen the end. -/
  ended : Bool := false
  /-- When the forwarding loop is stopped at the latest. -/
  deadline? : Option Nat := none

namespace Line

/-- Fills a pipe that holds `used` bytes: the frames that are wholly in it, the bytes in it then, and what
stays behind. -/
def pour (capacity : Nat) : Nat → List (ClientFrame × Nat) →
    List ClientFrame × Nat × List (ClientFrame × Nat)
  | used, [] => ([], used, [])
  | used, (f, missing) :: rest =>
    if used + missing ≤ capacity then
      let (held, used, behind) := pour capacity (used + missing) rest
      (f :: held, used, behind)
    else ([], capacity, (f, missing - (capacity - used)) :: rest)

/-- Everything goes as far as it can. -/
def flow (l : Line) : Line :=
  if l.listening then
    { l with seen := l.seen ++ l.held ++ l.unwritten.map (·.1), held := [], used := 0, unwritten := [] }
  else
    let (held, used, unwritten) := pour l.capacity l.used l.unwritten
    { l with held := l.held ++ held, used, unwritten }

def write (l : Line) (f : ClientFrame) : Line :=
  { l with unwritten := l.unwritten ++ [(f, f.size)] }.flow

def blocked (l : Line) : Bool := !l.unwritten.isEmpty

/-- No frame can be written any more. -/
def broken (l : Line) : Bool := l.vanished || l.answered

def listen (l : Line) : Line := { l with listening := true }.flow

/-- The connection is over: what stayed behind is lost, and a client that listens sees the end. -/
def finish (l : Line) : Line :=
  let l := { l with unwritten := [] }
  if l.listening && !l.ended then { l with seen := l.seen ++ [.ended], ended := true } else l

end Line
end FrameStream.Rehearsal
