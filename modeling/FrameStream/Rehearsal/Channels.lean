import FrameStream.Channel.Book
import FrameStream.Message

/-!
# Rehearsing the book of channels

A rehearsal opens channels under labels of its own and keeps what an opened channel gives: a handle to
send with, the receiving end, and the guard. After every step everyone who waits and can be served or
turned away has been. Heartbeats and jobs run on a virtual clock.
-/

namespace FrameStream.Rehearsal

/-- The time between two pings of a heartbeat, in milliseconds. -/
def heartbeatInterval : Nat := 30000

structure Opened where
  conn : String
  channel : ChannelNumber
  /-- The handle was not dropped. -/
  handle : Bool := true
  /-- The receiving end was not dropped. -/
  receiver : Bool := true
  /-- The guard was neither dropped nor closed. -/
  guarded : Bool := true
  deriving DecidableEq, Repr

/-- The channel of a job: a handle of its own, and the slot it may hold. -/
structure JobHandle where
  conn : String
  channel : ChannelNumber
  id : JobId
  deriving DecidableEq, Repr

inductive ChannelStep where
  | openAs (label conn : String)
  | close (conn : String)
  | closeGuard (label : String)
  | dropReceiver (label : String)
  | dropHandle (label : String)
  | beginJob (conn key : String)
  | endJob (conn : String) (id : JobId)
  | activeKey (conn : String)
  | pingAll
  | shutdownAll
  | send (label : String) (m : Message)
  | ticket (n : Nat)
  | receive (label : String)
  | isClosed (label : String)
  | jobChannel (label : String) (id : JobId) (job : String)
  | jobSend (job : String) (m : Message)
  | jobRelease (job : String)
  | jobIsClosed (job : String)
  /-- A job that runs for some time, or for ever. -/
  | spawnJob (duration : Option Nat)
  | waitJobs (timeout : Nat)
  | startHeartbeat
  | stopHeartbeat
  | advance (duration : Nat)
  | idle

inductive ChannelAnswer where
  | nothing
  /-- No such label, job or number. -/
  | unknown
  | names (handle guard : String)
  | name (n : String)
  | flag (b : Bool)
  | began (id : JobId)
  | notBegun (e : BeginError)
  | key (k : Option String)
  /-- What came of a message, and its number if it waits. -/
  | delivery (d : Delivery) (number : Nat)
  /-- What became of a message that had to wait. -/
  | ticket (d : Delivery)
  | frame (f : OutFrame)
  /-- Nothing is queued now. -/
  | empty
  /-- Nothing is queued, and nothing will be. -/
  | ended
  | closed (closed cancelled : Bool)
  | drained (all : Bool) (waited : Nat)
  deriving DecidableEq, Repr

structure Channels where
  book : ChannelBook
  opened : NameTable Opened := []
  jobs : NameTable JobHandle := []
  /-- What became of every message that had to wait. -/
  tickets : List Delivery := []
  now : Nat := 0
  /-- When every heartbeat began; the latest comes first. -/
  heartbeats : List Nat := []
  /-- When every spawned job ends, if it does. -/
  spawned : List (Option Nat) := []

namespace Channels

/-- Someone who waited was served or turned away. -/
def answer (c : Channels) (ticket : Nat) (delivered : Bool) : Channels :=
  { c with tickets := c.tickets.set ticket (if delivered then .queued else .closed) }

/-- Everyone who waits and can be is served or turned away, `fuel` of them at most. -/
def settle : Nat → Channels → Channels
  | 0, c => c
  | fuel + 1, c =>
    match c.book.resumeFirst? with
    | some (ticket, delivered, book) => settle fuel ({ c with book }.answer ticket delivered)
    | none => c

def handle? (c : Channels) (label : String) : Option Opened := (c.opened.get? label).filter (·.handle)

def dropHandle (c : Channels) (label : String) : Channels :=
  match c.handle? label with
  | some o =>
    { c with
      book := c.book.modify o.channel Outbound.dropSender
      opened := c.opened.insert label { o with handle := false } }
  | none => c

/-- Drops the receiving end under a label. -/
def dropReceiver (c : Channels) (label : String) : Channels :=
  match c.opened.get? label with
  | some o =>
    { c with
      book := c.book.modify o.channel Outbound.dropReceiver
      opened := c.opened.insert label { o with receiver := false } }
  | none => c

/-- Closes or drops the guard under a label, once. -/
def closeGuard (c : Channels) (label : String) : Channels :=
  match (c.opened.get? label).filter (·.guarded) with
  | some o =>
    { c with
      book := c.book.closeGuard o.conn o.channel
      opened := c.opened.insert label { o with guarded := false } }
  | none => c

/-- Opens a channel; what the label stood for before is dropped, but for its guard. -/
def openAs (c : Channels) (label conn : String) : Channels :=
  let (channel, book) := c.book.openChannel conn
  let c := ({ c with book }.dropHandle label).dropReceiver label
  { c with opened := c.opened.insert label { conn, channel } }

def send (c : Channels) (channel : ChannelNumber) (m : Message) : ChannelAnswer × Channels :=
  let ticket := c.tickets.length
  let (d, book) := c.book.send channel ticket m.text
  (.delivery d ticket, { c with book, tickets := if d = .waits then c.tickets ++ [d] else c.tickets })

/-- Takes the next frame from a receiving end. -/
def receive (c : Channels) (channel : ChannelNumber) : ChannelAnswer × Channels :=
  match c.book.take? channel with
  | some (f, book) => (.frame f, { c with book })
  | none => (if c.book.ended channel then .ended else .empty, c)

/-- Makes the channel of a job; one of the same name is dropped. -/
def jobChannel (c : Channels) (o : Opened) (id : JobId) (job : String) : Channels :=
  let book := c.book.modify o.channel Outbound.addSender
  let book := match c.jobs.get? job with
    | some old => book.modify old.channel Outbound.dropSender
    | none => book
  { c with book, jobs := c.jobs.insert job ⟨o.conn, o.channel, id⟩ }

/-- The slot of a job is given back. -/
def jobRelease (c : Channels) (j : JobHandle) : Bool × Channels :=
  let (held, book) := c.book.endJob j.conn j.id
  (held, { c with book })

/-- Sends a message of a job; before its last message the slot is given back. -/
def jobSend (c : Channels) (j : JobHandle) (m : Message) : ChannelAnswer × Channels :=
  (if m.isLast then (c.jobRelease j).2 else c).send j.channel m

/-- The pings of a heartbeat up to a time, but for the one it began with. -/
def beats (since later : Nat) : Nat := (later - since) / heartbeatInterval

def pings : Nat → ChannelBook → ChannelBook
  | 0, b => b
  | n + 1, b => pings n b.pingAll

/-- Time passes. Once every queue is full, further pings change nothing. -/
def advance (c : Channels) (duration : Nat) : Channels :=
  let later := c.now + duration
  let due := c.heartbeats.foldl (fun n since => n + (beats since later - beats since c.now)) 0
  { c with now := later, book := pings (min due c.book.depth) c.book }

/-- Waits for the spawned jobs, for some time at most. -/
def waitJobs (c : Channels) (timeout : Nat) : ChannelAnswer × Channels :=
  let waits := c.spawned.map fun e => (e.getD (c.now + timeout + 1)) - c.now
  let longest := waits.foldl max 0
  let waited := min longest timeout
  (.drained (longest ≤ timeout) waited, c.advance waited)

/-- The effect of a step, before those who wait are served. -/
def apply (c : Channels) : ChannelStep → ChannelAnswer × Channels
  | .openAs label conn => (.names conn conn, c.openAs label conn)
  | .close conn =>
    let (was, book) := c.book.close conn
    (.flag was, { c with book })
  | .closeGuard label => (.nothing, c.closeGuard label)
  | .dropReceiver label => (.nothing, c.dropReceiver label)
  | .dropHandle label => (.nothing, c.dropHandle label)
  | .beginJob conn key =>
    match c.book.beginJob conn key with
    | .ok (id, book) => (.began id, { c with book })
    | .error e => (.notBegun e, c)
  | .endJob conn id =>
    let (held, book) := c.book.endJob conn id
    (.flag held, { c with book })
  | .activeKey conn => (.key (c.book.activeKey? conn), c)
  | .pingAll => (.nothing, { c with book := c.book.pingAll })
  | .shutdownAll => (.nothing, { c with book := c.book.shutdownAll })
  | .send label m =>
    match c.handle? label with
    | some o => c.send o.channel m
    | none => (.unknown, c)
  | .ticket n => ((c.tickets[n]?).elim .unknown .ticket, c)
  | .receive label =>
    match (c.opened.get? label).filter (·.receiver) with
    | some o => c.receive o.channel
    | none => (.unknown, c)
  | .isClosed label =>
    match c.handle? label with
    | some o => (.closed (c.book.closed o.channel) (c.book.cancelled o.channel), c)
    | none => (.unknown, c)
  | .jobChannel label id job =>
    match c.handle? label with
    | some o => (.name o.conn, c.jobChannel o id job)
    | none => (.unknown, c)
  | .jobSend job m =>
    match c.jobs.get? job with
    | some j => c.jobSend j m
    | none => (.unknown, c)
  | .jobRelease job =>
    match c.jobs.get? job with
    | some j =>
      let (held, c) := c.jobRelease j
      (.flag held, c)
    | none => (.unknown, c)
  | .jobIsClosed job =>
    match c.jobs.get? job with
    | some j => (.flag (c.book.closed j.channel), c)
    | none => (.unknown, c)
  | .spawnJob duration => (.nothing, { c with spawned := duration.map (c.now + ·) :: c.spawned })
  | .waitJobs timeout => c.waitJobs timeout
  | .startHeartbeat => (.nothing, { c with heartbeats := c.now :: c.heartbeats, book := c.book.pingAll })
  | .stopHeartbeat => (.nothing, { c with heartbeats := c.heartbeats.drop 1 })
  | .advance duration => (.nothing, c.advance duration)
  | .idle => (.nothing, c)

/-- One step of the script and what it reports. -/
def step (c : Channels) (s : ChannelStep) : ChannelAnswer × Channels :=
  let (answer, c) := c.apply s
  (answer, settle c.book.waiting c)

end Channels
end FrameStream.Rehearsal
