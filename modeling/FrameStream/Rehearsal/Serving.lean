import FrameStream.Channel.Server
import FrameStream.Http.Router
import FrameStream.Rehearsal.Line
import FrameStream.Rehearsal.Timed

/-!
# Rehearsing a server

Clients connect, send, listen and leave as a script says; after every step the virtual clock runs for some
time. A client is known by a label and stands for the latest connection made under it. The rehearsal reports
what every client has seen and how many channels are open.
-/

namespace FrameStream.Rehearsal

/-- How long the forwarding loop may go on after the receive loop has left, in milliseconds. -/
def drainTime : Nat := 2000

inductive ServingStep where
  /-- A client connects; its line holds so many bytes, and it listens or does not. -/
  | connect (client target : String) (capacity : Nat) (listening : Bool)
  | listen (client : String)
  | vanish (client : String)
  | send (client : String) (i : Inbound)
  | pingAll
  | shutdownAll
  | waitJobs (timeout : Nat)
  | idle

inductive ServingAnswer where
  | nothing
  /-- No such client. -/
  | unknown
  /-- The status a client was answered when it wanted to connect. -/
  | status (n : Nat)
  | sent
  /-- The connection is over, or the client has said goodbye. -/
  | failed
  | drained (all : Bool)
  deriving DecidableEq, Repr

/-- What a step reports, what clients have seen since, and the open channels. -/
structure ServingReport where
  answer : ServingAnswer
  seen : List (String × List ClientFrame)
  channels : Nat

structure Serving where
  now : Nat := 0
  shared : Shared
  server : ChannelServer
  /-- The line of every connection. -/
  lines : List Line := []
  /-- The jobs that are in a delay, and when it ends. -/
  delays : List (Nat × Nat) := []
  /-- The connection of every client. -/
  clients : NameTable Nat := []

namespace Serving

def modifyLine (w : Serving) (n : Nat) (f : Line → Line) : Serving := { w with lines := w.lines.modify n f }

/-- The forwarding loop takes the next frame and starts to write it, or stops. -/
def forward? (w : Serving) (n : Nat) (l : Line) : Option Serving :=
  (w.server.forward? n).map fun server =>
    match (server.connections[n]?).bind Connection.frame? with
    | some f =>
      if l.broken then { w with server := server.writeFailed n }
      else { w with server }.modifyLine n (·.write (.ofOut f))
    | none => { w with server }

def moveForwarding? (w : Serving) (n : Nat) (c : Connection) (l : Line) : Option Serving :=
  match c.forwarding with
  | .idle => w.forward? n l
  | .writing _ =>
    if l.vanished then some { w with server := w.server.writeFailed n }
    else if l.blocked then none
    else some { w with server := w.server.written n }
  | .stopped => none

/-- What the line carries when the receive loop takes something: a ping is answered at once, a goodbye only
by a write that is under way. -/
def hear (c : Connection) (l : Line) : Inbound → Line
  | .ping payload => if l.vanished then l else l.write (.pong payload)
  | .close reason =>
    match c.forwarding with
    | .writing _ => { l with answered := true }.write (.close reason)
    | _ => { l with answered := true }
  | _ => l

def moveReceiving? (w : Serving) (n : Nat) (c : Connection) : Option Serving :=
  match w.server.leave? n with
  | some server => some { w with server }
  | none =>
    match w.server.refuse? n with
    | some server => some { w with server }
    | none => (w.server.take? n).map fun (i, server) => { w with server }.modifyLine n (hear c · i)

/-- The end of a connection: the forwarding loop is given some time once the receive loop has left. -/
def moveEnd? (w : Serving) (n : Nat) (c : Connection) (l : Line) : Option Serving :=
  if c.finished then
    if l.blocked || (l.listening && !l.ended) then some (w.modifyLine n Line.finish) else none
  else
    match c.receiving, l.deadline? with
    | .left, none => some (w.modifyLine n fun l => { l with deadline? := some (w.now + drainTime) })
    | .left, some time => if time ≤ w.now then some { w with server := w.server.stop n } else none
    | _, _ => none

def moveConnection? (w : Serving) (n : Nat) : Option Serving :=
  match w.server.connections[n]?, w.lines[n]? with
  | some c, some l =>
    match w.moveForwarding? n c l with
    | some w => some w
    | none =>
      match w.moveReceiving? n c with
      | some w => some w
      | none => w.moveEnd? n c l
  | _, _ => none

/-- The rehearsal with a job in a phase, and in a delay or in none. -/
def setTimed (w : Serving) (k : Nat) (t : TimedPhase) : Serving :=
  { w with
    server := w.server.setPhase k t.phase
    delays := (t.until?.map fun time => (k, time)).toList ++ w.delays.filter (·.1 ≠ k) }

def moveJob? (w : Serving) (setting : Setting) (k : Nat) : Option Serving :=
  match w.server.retire? k with
  | some server => some { w with server }
  | none =>
    match w.server.send? k with
    | some server => some { w with server }
    | none =>
      match w.server.jobs[k]? with
      | none => none
      | some j =>
        let t : TimedPhase := ⟨j.phase, w.delays.lookup k⟩
        (t.move? setting w.now (w.server.book.closed j.channel) w.shared).map fun (t, shared) =>
          { w with shared }.setTimed k t

def move? (w : Serving) (setting : Setting) : Option Serving :=
  match w.shared.move? setting w.now with
  | some shared => some { w with shared }
  | none =>
    match (List.range w.server.book.channels.length).findSome? w.server.resume? with
    | some server => some { w with server }
    | none =>
      match (List.range w.server.connections.length).findSome? w.moveConnection? with
      | some w => some w
      | none => (List.range w.server.jobs.length).findSome? (w.moveJob? setting)

def next? (w : Serving) : Option Nat :=
  earliest? w.now (w.shared.times ++ w.delays.map (·.2) ++ w.lines.filterMap (·.deadline?))

/-- Moves, and goes on in time up to `limit`; it ends early when nothing moves and `enough` holds. -/
def run (setting : Setting) (limit : Nat) (enough : Serving → Bool) : Nat → Serving → Serving
  | 0, w => w
  | fuel + 1, w =>
    match w.move? setting with
    | some w => run setting limit enough fuel w
    | none =>
      if enough w then w
      else
        match w.next? with
        | some time =>
          if time ≤ limit then run setting limit enough fuel { w with now := time } else { w with now := limit }
        | none => { w with now := limit }

/-- What the server answers to a client that wants a channel. -/
def handshakeStatus (w : Serving) (target : String) : Nat :=
  (Http.respond { registry := w.server.registry, channels := w.server.book.count, origins := ⟨[]⟩, upgradable := true }
    "" (Http.handshake target)).status

def vanish (w : Serving) (client : String) : Serving :=
  match w.clients.get? client with
  | some n =>
    { w with clients := w.clients.erase client, server := w.server.arrive n .lost }.modifyLine n
      fun l => { l with vanished := true }
  | none => w

def connect (w : Serving) (client target : String) (capacity : Nat) (listening : Bool) :
    ServingAnswer × Serving :=
  let status := w.handshakeStatus target
  if status = 101 then
    let w := w.vanish client
    let n := w.server.connections.length
    (.status status, { w with
      server := w.server.accept (toString n)
      lines := w.lines ++ [{ capacity, listening }]
      clients := w.clients.insert client n })
  else (.status status, w)

def send (w : Serving) (client : String) (i : Inbound) : ServingAnswer × Serving :=
  match w.clients.get? client with
  | none => (.unknown, w)
  | some n =>
    match w.server.connections[n]?, w.lines[n]? with
    | some c, some l =>
      if c.finished || l.parted then (.failed, w)
      else
        (.sent, { w with server := w.server.arrive n i }.modifyLine n
          fun l => { l with parted := i.parting })
    | _, _ => (.unknown, w)

/-- The effect of a step, before the clock runs; `fuel` is for the time a step takes by itself. -/
def apply (w : Serving) (setting : Setting) (fuel : Nat) : ServingStep → ServingAnswer × Serving
  | .connect client target capacity listening => w.connect client target capacity listening
  | .listen client =>
    (.nothing, match w.clients.get? client with
      | some n => w.modifyLine n Line.listen
      | none => w)
  | .vanish client => (.nothing, w.vanish client)
  | .send client i => w.send client i
  | .pingAll => (.nothing, { w with server := { w.server with book := w.server.book.pingAll } })
  | .shutdownAll => (.nothing, { w with server := { w.server with book := w.server.book.shutdownAll } })
  | .waitJobs timeout =>
    let w := run setting (w.now + timeout) (·.server.drained) fuel w
    (.drained w.server.drained, w)
  | .idle => (.nothing, w)

/-- What every client has seen since the last report. -/
def seen (w : Serving) : List (String × List ClientFrame) :=
  w.clients.filterMap fun (client, n) =>
    match w.lines[n]? with
    | some l => if l.seen.isEmpty then none else some (client, l.seen)
    | none => none

/-- One step of the script, the time after it, and the report. -/
def step (w : Serving) (setting : Setting) (fuel : Nat) (s : ServingStep) (duration : Nat) :
    ServingReport × Serving :=
  let (answer, w) := w.apply setting fuel s
  let w := run setting (w.now + duration) (fun _ => false) fuel w
  (⟨answer, w.seen, w.server.book.count⟩,
    { w with lines := w.lines.map fun l => { l with seen := [] } })

/-- The moves a step can lead to: every frame of a request is read, processed, sent and written. -/
def moves (setting : Setting) : ServingStep → Nat
  | .send _ (.request text) => 2 * movesFor (setting.framesOf text)
  | _ => 64

/-- All steps of a script, each with the time after it. -/
def steps (setting : Setting) (fuel : Nat) : Serving → List (ServingStep × Nat) → List ServingReport
  | _, [] => []
  | w, (s, duration) :: rest =>
    let (report, w) := w.step setting fuel s duration
    report :: steps setting fuel w rest

def rehearse (setting : Setting) (pool : Pool) (depth : Nat) (script : List (ServingStep × Nat)) :
    List ServingReport :=
  steps setting (script.foldl (fun n s => n + moves setting s.1) 0)
    { shared := { pool }
      server := { config := setting.config, registry := setting.registry, book := .ofDepth depth } }
    script

end Serving
end FrameStream.Rehearsal
