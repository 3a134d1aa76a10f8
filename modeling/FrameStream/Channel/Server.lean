import FrameStream.Channel.Connection

/-!
# Serving connections

The state of a server that turns connections into channels: the book of channels, both loops of every
connection, and every job that was ever started. Each function is one step that a loop or a job can take by
itself; in what order they come is left open.
-/

namespace FrameStream

/-- Connections, their jobs, and the book of their channels. -/
structure ChannelServer where
  config : ServiceConfig
  registry : Registry
  book : ChannelBook
  /-- All connections, in the order in which they were accepted. -/
  connections : List Connection := []
  /-- All jobs, in the order in which they were started. -/
  jobs : List ChannelJob := []
  /-- The number for the next message that waits. -/
  nextTicket : Nat := 0

namespace ChannelServer

/-- A connection becomes a channel under a name. -/
def accept (s : ChannelServer) (conn : String) : ChannelServer :=
  let (channel, book) := s.book.openChannel conn
  { s with book, connections := s.connections ++ [{ conn, channel }] }

def arrive (s : ChannelServer) (n : Nat) (i : Inbound) : ChannelServer :=
  { s with connections := s.connections.modify n (·.arrive i) }

/-- The server with a connection and the book changed. -/
def setConnection (s : ChannelServer) (n : Nat) (changed : Connection × ChannelBook) : ChannelServer :=
  { s with connections := s.connections.set n changed.1, book := changed.2 }

/-- The server with a job and the book changed. -/
def setJob (s : ChannelServer) (k : Nat) (changed : ChannelJob × ChannelBook) : ChannelServer :=
  { s with jobs := s.jobs.set k changed.1, book := changed.2 }

/-- The server with the phase of a job changed. -/
def setPhase (s : ChannelServer) (k : Nat) (p : Phase) : ChannelServer :=
  { s with jobs := s.jobs.modify k fun j => { j with phase := p } }

/-- A step of a connection that concerns the book alone. -/
def onConnection? (s : ChannelServer) (n : Nat)
    (step : Connection → ChannelBook → Option (Connection × ChannelBook)) : Option ChannelServer :=
  match s.connections[n]? with
  | some c => (step c s.book).map (s.setConnection n)
  | none => none

/-- The receive loop of a connection takes the next thing its client has sent. -/
def take? (s : ChannelServer) (n : Nat) : Option (Inbound × ChannelServer) :=
  match s.connections[n]? with
  | none => none
  | some c =>
    (c.take? s.book s.config s.registry).map fun (i, c, book, job) =>
      (i, { s.setConnection n (c, book) with jobs := s.jobs ++ job.toList })

/-- The receive loop of a connection hands its refusal to the queue. -/
def refuse? (s : ChannelServer) (n : Nat) : Option ChannelServer :=
  (s.onConnection? n fun c b => c.refuse? b s.nextTicket).map fun s =>
    { s with nextTicket := s.nextTicket + 1 }

/-- The receive loop of a connection leaves a cancelled channel. -/
def leave? (s : ChannelServer) (n : Nat) : Option ChannelServer := s.onConnection? n Connection.leaveIfCancelled?

/-- The forwarding loop of a connection takes the next frame, or stops when none can come. -/
def forward? (s : ChannelServer) (n : Nat) : Option ChannelServer := s.onConnection? n Connection.forward?

/-- The frame of a connection is written. -/
def written (s : ChannelServer) (n : Nat) : ChannelServer :=
  (s.onConnection? n fun c b => some (c.written b)).getD s

/-- The frame of a connection cannot be written. -/
def writeFailed (s : ChannelServer) (n : Nat) : ChannelServer :=
  (s.onConnection? n fun c b => some (c.writeFailed b)).getD s

/-- The forwarding loop of a connection is stopped. -/
def stop (s : ChannelServer) (n : Nat) : ChannelServer :=
  (s.onConnection? n fun c b => some (c.stop b)).getD s

/-- One step of a job that sends a message. -/
def send? (s : ChannelServer) (k : Nat) : Option ChannelServer :=
  match s.jobs[k]? with
  | some j => (j.send? s.book s.nextTicket).map fun changed =>
      { s.setJob k changed with nextTicket := s.nextTicket + 1 }
  | none => none

/-- A job that has returned lets go of its channel. -/
def retire? (s : ChannelServer) (k : Nat) : Option ChannelServer :=
  match s.jobs[k]? with
  | some j => (j.retire? s.book).map (s.setJob k)
  | none => none

/-- Whoever waits under a number learns what came of it. -/
def answer (s : ChannelServer) (ticket : Nat) (delivered : Bool) : ChannelServer :=
  { s with
    jobs := s.jobs.map fun j => if j.ticket? = some ticket then j.answered delivered else j
    connections := s.connections.map fun c =>
      match c.receiving with
      | .waiting t => if t = ticket then c.refused else c
      | _ => c }

/-- Somebody who waited goes on: the first who can on a channel. -/
def resume? (s : ChannelServer) (n : ChannelNumber) : Option ChannelServer :=
  (s.book.resume? n).map fun (ticket, delivered, book) => { s with book }.answer ticket delivered

/-- Every job has let go of its channel. -/
def drained (s : ChannelServer) : Bool := s.jobs.all (·.retired)

end ChannelServer
end FrameStream
