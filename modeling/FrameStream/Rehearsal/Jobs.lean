import FrameStream.Rehearsal.Timed

/-!
# Rehearsing jobs

Every job has a channel of its own, which closes after a number of messages or at a time. Jobs start each at
its time, or each after the one before has returned. The rehearsal reports every message that was delivered,
how each request ended, how many reads were made, and when the last job returned.
-/

namespace FrameStream.Rehearsal

structure ChannelScript where
  /-- Closed once so many messages are delivered. -/
  closeAfter : Option Nat := none
  /-- Closed from this time on. -/
  closeAt : Option Nat := none
  /-- How long a message takes. -/
  sendDelay : Nat := 0
  /-- Whether it says of itself that it is closed. -/
  reportsClosed : Bool := true
  deriving DecidableEq, Repr, Inhabited

def ChannelScript.closed (c : ChannelScript) (now delivered : Nat) : Bool :=
  (match c.closeAfter with
    | some n => n ≤ delivered
    | none => false) ||
  (match c.closeAt with
    | some t => t ≤ now
    | none => false)

/-- Whether a message gets through that is sent at a time, after so many others. -/
def ChannelScript.delivers (c : ChannelScript) (now delivered : Nat) : Bool :=
  !c.closed now delivered && !c.closed (now + c.sendDelay) delivered

structure JobScript where
  text : Bytes
  /-- How long it waits before it starts. -/
  start : Nat := 0
  channel : ChannelScript := {}

inductive Activity where
  /-- Not before the job before it has returned. -/
  | queued
  /-- Not before this time. -/
  | waiting (time : Nat)
  | active (t : TimedPhase)

structure Actor where
  script : JobScript
  activity : Activity
  /-- What was wrong with the text, or what it asked for. -/
  request : Except Refusal Request := .error .keyMissing
  /-- Messages delivered, the latest first. -/
  delivered : List Message := []
  /-- The reads made when each unit message was about to be sent, the latest first. -/
  readsAtSend : List (SequenceIndex × Nat) := []
  /-- The reads made when the job returned. -/
  reads : Nat := 0

structure Jobs where
  now : Nat := 0
  shared : Shared
  actors : List Actor
  /-- When the last job returned. -/
  elapsed : Nat := 0

namespace Actor

def closed (a : Actor) (now : Nat) : Bool := a.script.channel.closed now a.delivered.length

def saysClosed (a : Actor) (now : Nat) : Bool := a.script.channel.reportsClosed && a.closed now

/-- The reference of the request, if it has one. -/
def reference? (a : Actor) : Option String :=
  match a.request with
  | .ok r => r.resource
  | .error _ => none

/-- The first phase of a job; a text that cannot be read is rejected without a key. -/
def begin (a : Actor) (setting : Setting) : Actor :=
  match Request.parse a.script.text with
  | .ok r =>
    { a with request := .ok r, activity := .active ⟨Phase.start r setting.config setting.registry, none⟩ }
  | .error e => { a with request := .error e, activity := .active ⟨.rejecting none e.error, none⟩ }

/-- The reads made so far of the reference of the request. -/
def readsSoFar (a : Actor) (s : Shared) : Nat := ((a.reference?).map s.readsOf).getD 0

def deliver (a : Actor) (s : Shared) (now : Nat) (t : TimedPhase) (m : Message) : Actor × Shared :=
  ({ a with delivered := m :: a.delivered, activity := .active ⟨t.phase.answered true, none⟩ },
    s.note now .send (m.key?.getD "") m.index?)

def refuse (a : Actor) (t : TimedPhase) : Actor :=
  { a with activity := .active ⟨t.phase.answered false, none⟩ }

/-- A note of the reads made, if the message is one of a unit. -/
def noteReads (a : Actor) (s : Shared) (m : Message) : Actor :=
  match m.index? with
  | some i => { a with readsAtSend := (i, a.readsSoFar s) :: a.readsAtSend }
  | none => a

/-- One move of sending a message: it starts on an open channel and arrives on one that still is. -/
def send (a : Actor) (s : Shared) (now : Nat) (t : TimedPhase) (m : Message) : Actor × Shared :=
  if a.closed now then (a.refuse t, s)
  else
    match t.until? with
    | some _ => a.deliver s now t m
    | none =>
      let a := a.noteReads s m
      let delay := a.script.channel.sendDelay
      if delay = 0 then a.deliver s now t m
      else ({ a with activity := .active ⟨t.phase, some (now + delay)⟩ }, s)

def move? (a : Actor) (setting : Setting) (now : Nat) (s : Shared) : Option (Actor × Shared) :=
  match a.activity with
  | .queued => none
  | .waiting time => if time ≤ now then some (a.begin setting, s) else none
  | .active t =>
    match t.phase.message? with
    | some m => if t.delayed now then none else some (a.send s now t m)
    | none =>
      (t.move? setting now (a.saysClosed now) s).map fun (t, s) => ({ a with activity := .active t }, s)

/-- The outcome of a job that has one. -/
def outcome? (a : Actor) : Option JobOutcome :=
  match a.activity with
  | .active t => t.phase.outcome?
  | _ => none

def time? (a : Actor) : Option Nat :=
  match a.activity with
  | .queued => none
  | .waiting time => some time
  | .active t => t.until?

end Actor

namespace Jobs

/-- The first queued job waits for its start. -/
def startNext (now : Nat) : List Actor → List Actor
  | [] => []
  | a :: rest =>
    match a.activity with
    | .queued => { a with activity := .waiting (now + a.script.start) } :: rest
    | _ => a :: startNext now rest

/-- What follows when a job has moved; one that returned lets the next begin. -/
def settleActor (j : Jobs) (place : Nat) (a : Actor) (s : Shared) : Jobs :=
  if a.outcome?.isSome then
    let a := { a with reads := a.readsSoFar s }
    { j with shared := s, actors := startNext j.now (j.actors.set place a), elapsed := j.now }
  else { j with shared := s, actors := j.actors.set place a }

/-- One move of the first job that can move, of those from `place` on. -/
def moveActor? (j : Jobs) (setting : Setting) : Nat → List Actor → Option Jobs
  | _, [] => none
  | place, a :: rest =>
    match a.move? setting j.now j.shared with
    | some (a, s) => some (j.settleActor place a s)
    | none => j.moveActor? setting (place + 1) rest

def move? (j : Jobs) (setting : Setting) : Option Jobs :=
  match j.shared.move? setting j.now with
  | some shared => some { j with shared }
  | none => j.moveActor? setting 0 j.actors

def next? (j : Jobs) : Option Nat := earliest? j.now (j.shared.times ++ j.actors.filterMap Actor.time?)

/-- Moves, and goes on in time, until nothing is left. -/
def run (setting : Setting) : Nat → Jobs → Jobs
  | 0, j => j
  | fuel + 1, j =>
    match j.move? setting with
    | some j => run setting fuel j
    | none =>
      match j.next? with
      | some time => run setting fuel { j with now := time }
      | none => j

/-- The most moves a rehearsal can make. -/
def moves (setting : Setting) (scripts : List JobScript) : Nat :=
  scripts.foldl (fun n s => n + movesFor (setting.framesOf s.text)) 0

/-- The jobs of a script before any has begun. -/
def ofScripts (sequential : Bool) (scripts : List JobScript) : List Actor :=
  if sequential then startNext 0 (scripts.map fun script => { script, activity := .queued })
  else scripts.map fun script => { script, activity := .waiting script.start }

def rehearse (setting : Setting) (pool : Pool) (sequential : Bool) (scripts : List JobScript) : Jobs :=
  run setting (moves setting scripts) { shared := { pool }, actors := ofScripts sequential scripts }

end Jobs
end FrameStream.Rehearsal
