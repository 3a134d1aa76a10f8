import Mathlib.Logic.Function.Basic
import FrameStream.Proofs.Channel.Steps

/-!
# What is said to whom

The messages of a channel all go through one queue, and nothing in the queue tells for which request a message was
meant. `Docket` is a server with a record beside it: what arrived on each connection and how much of it was taken, the
job that was started for it, and every message that got into a queue, with what it answers. The record only looks on;
the server takes the same steps without it.
-/

namespace FrameStream

/-- One thing that a client sent: the number of its connection, and its place among all that it sent. -/
structure Letter where
  connection : Nat
  place : Nat
  deriving DecidableEq, Repr

/-- A message that waits for room. -/
structure Waiter where
  ticket : Nat
  letter : Letter
  message : Message

/-- A server and what is said to its clients. -/
structure Docket where
  server : ChannelServer
  /-- All that arrived on a connection, in order. -/
  arrived : Nat → List Inbound := fun _ => []
  /-- How much of it the receive loop has taken. -/
  taken : Nat → Nat := fun _ => 0
  /-- The letters that jobs were started for, job by job. -/
  origins : List Letter := []
  /-- The letters that were taken while nobody held the slot. -/
  unhindered : List Letter := []
  /-- The messages that wait, in the order in which they began to. -/
  waiters : List Waiter := []
  /-- The messages that got into a queue, in order, each with what it answers. -/
  said : List (Letter × Message) := []
  /-- The frames that the forwarding loop of a connection has taken out of its queue. -/
  forwarded : Nat → List OutFrame := fun _ => []

namespace Docket

/-- The messages that got into a queue in answer to a letter. -/
def heard (d : Docket) (l : Letter) : List Message := (d.said.filter (·.1 = l)).map (·.2)

/-- The messages that got into the queue of a channel. -/
def saidOn (d : Docket) (n : ChannelNumber) : List Message := (d.said.filter (·.1.connection = n)).map (·.2)

/-- The letter that the receive loop of a connection took last. -/
def last (d : Docket) (n : Nat) : Letter := ⟨n, d.taken n - 1⟩

def letter? (d : Docket) (l : Letter) : Option Inbound := (d.arrived l.connection)[l.place]?

/-- The channel of a connection is open and nobody holds its slot. -/
def slotFree (d : Docket) (n : Nat) : Bool :=
  match d.server.connections[n]? with
  | some c => d.server.book.registered c.conn && (d.server.book.holder? c.conn).isNone
  | none => false

/-- Notes what became of a message that was handed to a queue. -/
def handed (d : Docket) (l : Letter) (m : Message) : Delivery → Docket
  | .queued => { d with said := d.said ++ [(l, m)] }
  | .waits => { d with waiters := d.waiters ++ [⟨d.server.nextTicket, l, m⟩] }
  | .closed => d

/-- Notes what became of the message that waited under a number. -/
def answered (d : Docket) (ticket : Nat) (delivered : Bool) : Docket :=
  { d with
    waiters := d.waiters.filter (·.ticket ≠ ticket)
    said := d.said ++
      if delivered then (d.waiters.filter (·.ticket = ticket)).map fun w => (w.letter, w.message) else [] }

/-- Notes a step that leads to the server `s`. -/
def note (d : Docket) (s : ChannelServer) : ServerEvent → Docket
  | .arrived n i => { d with arrived := Function.update d.arrived n (d.arrived n ++ [i]) }
  | .taken n =>
    { d with
      taken := Function.update d.taken n (d.taken n + 1)
      origins := d.origins ++ List.replicate (s.jobs.length - d.server.jobs.length) ⟨n, d.taken n⟩
      unhindered := if d.slotFree n then d.unhindered ++ [⟨n, d.taken n⟩] else d.unhindered }
  | .refused n =>
    match d.server.connections[n]? with
    | some c =>
      match c.receiving with
      | .refusing m => d.handed (d.last n) m (d.server.book.send c.channel d.server.nextTicket m.text).1
      | _ => d
    | none => d
  | .sent k =>
    match d.server.jobs[k]?, d.origins[k]? with
    | some j, some l =>
      match j.message? with
      | some m =>
        if m.isLast && !j.released then d
        else d.handed l m (d.server.book.send j.channel d.server.nextTicket m.text).1
      | none => d
    | _, _ => d
  | .resumed n =>
    match d.server.book.resume? n with
    | some (ticket, delivered, _) => d.answered ticket delivered
    | none => d
  | .forwarded n =>
    match (d.server.connections[n]?).bind fun c => d.server.book.take? c.channel with
    | some (f, _) => { d with forwarded := Function.update d.forwarded n (d.forwarded n ++ [f]) }
    | none => d
  | _ => d

/-- One step of the server, with what there is to note. -/
def step? (d : Docket) (e : ServerEvent) : Option Docket :=
  (d.server.step? e).map fun s => { d.note s e with server := s }

def run? (d : Docket) (es : List ServerEvent) : Option Docket := es.foldlM step? d

def start (config : ServiceConfig) (registry : Registry) (depth : Nat) : Docket :=
  { server := .ofDepth config registry depth }

variable {d d' : Docket} {e : ServerEvent} {l : Letter} {m : Message}

theorem step?_eq_some (h : d.step? e = some d') :
    ∃ s, d.server.step? e = some s ∧ d' = { d.note s e with server := s } := by
  obtain ⟨s, hs, rfl⟩ := Option.map_eq_some_iff.mp h
  exact ⟨s, hs, rfl⟩

theorem run?_cons {es : List ServerEvent} (h : d.run? (e :: es) = some d') :
    ∃ d₁, d.step? e = some d₁ ∧ d₁.run? es = some d' :=
  Option.bind_eq_some_iff.mp h

/-- What every step keeps, a run keeps. -/
theorem run_keeps {P : Docket → Prop} (hstep : ∀ {d d' : Docket} {e : ServerEvent}, P d → d.step? e = some d' → P d') :
    ∀ {es : List ServerEvent} {d d' : Docket}, P d → d.run? es = some d' → P d'
  | [], _, _, h, hes => by
    cases hes
    exact h
  | _ :: _, _, _, h, hes => by
    obtain ⟨d₁, hs, hes⟩ := run?_cons hes
    exact run_keeps hstep (hstep h hs) hes

/-- What holds after a run and did not hold before it comes about in one step of the run. -/
theorem exists_crossing {P : Docket → Prop} :
    ∀ {es : List ServerEvent} {d d' : Docket}, d.run? es = some d' → ¬ P d → P d' →
      ∃ fs e gs d₀ d₁, es = fs ++ e :: gs ∧ d.run? fs = some d₀ ∧ d₀.step? e = some d₁ ∧ d₁.run? gs = some d' ∧
        ¬ P d₀ ∧ P d₁
  | [], _, _, hes, hbefore, hafter => by
    cases hes
    exact absurd hafter hbefore
  | e :: es, d, d', hes, hbefore, hafter => by
    obtain ⟨d₁, hs, hes'⟩ := run?_cons hes
    by_cases hnow : P d₁
    · exact ⟨[], e, es, d, d₁, rfl, rfl, hs, hes', hbefore, hnow⟩
    · obtain ⟨fs, e', gs, d₀, d₂, rfl, hfs, hfacts⟩ := exists_crossing hes' hnow hafter
      exact ⟨e :: fs, e', gs, d₀, d₂, rfl, Option.bind_eq_some_iff.mpr ⟨d₁, hs, hfs⟩, hfacts⟩

/-- The record does not get in the way of the server. -/
theorem server_step? (d : Docket) (e : ServerEvent) : (d.step? e).map (·.server) = d.server.step? e := by
  rw [step?, Option.map_map]
  exact Option.map_id'

theorem prefix_update {α : Type} (f : Nat → List α) (n m : Nat) (a : α) :
    f m <+: Function.update f n (f n ++ [a]) m := by
  by_cases hm : m = n
  · subst hm
    rw [Function.update_self]
    exact List.prefix_append _ _
  · exact (Function.update_of_ne hm _ f).symm ▸ List.prefix_rfl

theorem le_update (f : Nat → Nat) (n m : Nat) : f m ≤ Function.update f n (f n + 1) m := by
  by_cases hm : m = n
  · subst hm
    rw [Function.update_self]
    exact Nat.le_succ _
  · exact Nat.le_of_eq (Function.update_of_ne hm _ f).symm

theorem isSome_step? (d : Docket) (e : ServerEvent) : (d.step? e).isSome = (d.server.step? e).isSome :=
  Option.isSome_map

theorem heard_of_said (h : d'.said = d.said) (l : Letter) : d'.heard l = d.heard l := by
  rw [heard, h, heard]

/-- A message that is said is heard by the one it answers, and by nobody else. -/
theorem heard_append (h : d'.said = d.said ++ [(l, m)]) (other : Letter) :
    d'.heard other = if l = other then d.heard other ++ [m] else d.heard other := by
  unfold heard
  rw [h]
  by_cases hl : l = other
  · simp [hl]
  · simp [hl]

end Docket
end FrameStream
