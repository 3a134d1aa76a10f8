import Mathlib.Data.List.Basic
import FrameStream.Channel.Server
import FrameStream.Proofs.Channel.Queue
import FrameStream.Proofs.Places

/-!
# The steps of a server of channels

Connections are accepted, clients send, and the loops of every connection and the jobs take their steps in any order.
What a job does between two messages, how its resource opens, what it reads and how its units end, is left open, and
so is when channels are pinged, closed or shut down. No two connections get the same name.

Most steps neither hand a message to a queue nor take one out of it, and leave every job where it stands; they are
quiet. What the others do is said event by event.
-/

namespace FrameStream

/-- What a job does without sending anything. -/
inductive JobMove where
  | opened (result : Except StreamError Resource)
  /-- The job looks whether its channel is closed. -/
  | looked
  | read (pool : Pool)
  | ended (outcome : UnitOutcome)

/-- What happens in a server. -/
inductive ServerEvent where
  | accepted (conn : String)
  | arrived (n : Nat) (i : Inbound)
  /-- A receive loop takes what its client sent. -/
  | taken (n : Nat)
  /-- A receive loop hands its refusal to the queue. -/
  | refused (n : Nat)
  | left (n : Nat)
  | forwarded (n : Nat)
  | written (n : Nat)
  | writeFailed (n : Nat)
  | stopped (n : Nat)
  /-- A job gives back its slot before its last message, or hands its message to the queue. -/
  | sent (k : Nat)
  | moved (k : Nat) (m : JobMove)
  | retired (k : Nat)
  /-- Whoever has waited longest on a channel goes on. -/
  | resumed (n : ChannelNumber)
  | pinged
  | shutDown
  | closed (conn : String)

/-- A loop leaves, writes or stops, a job lets go of its channel, or all channels are concerned. -/
def ServerEvent.isQuiet : ServerEvent → Bool
  | .left _ | .written _ | .writeFailed _ | .stopped _ | .retired _ | .pinged | .shutDown | .closed _ => true
  | _ => false

/-- The phase of a job after a move. -/
def JobMove.phase (m : JobMove) (s : ChannelServer) (j : ChannelJob) : Phase :=
  match m with
  | .opened result => j.phase.opened s.config result
  | .looked => j.phase.looked (s.book.closed j.channel)
  | .read pool => (j.phase.readDone pool).1
  | .ended outcome => j.phase.unitEnded outcome

/-- A server with no connections. -/
def ChannelServer.ofDepth (config : ServiceConfig) (registry : Registry) (depth : Nat) : ChannelServer :=
  { config, registry, book := .ofDepth depth }

/-- One step of a server, if it can be made. -/
def ChannelServer.step? (s : ChannelServer) : ServerEvent → Option ChannelServer
  | .accepted conn => if s.connections.any (·.conn = conn) then none else some (s.accept conn)
  | .arrived n i => if n < s.connections.length then some (s.arrive n i) else none
  | .taken n => (s.take? n).map (·.2)
  | .refused n => s.refuse? n
  | .left n => s.leave? n
  | .forwarded n => s.forward? n
  | .written n => if ((s.connections[n]?).bind Connection.frame?).isSome then some (s.written n) else none
  | .writeFailed n => if ((s.connections[n]?).bind Connection.frame?).isSome then some (s.writeFailed n) else none
  | .stopped n => if n < s.connections.length then some (s.stop n) else none
  | .sent k => s.send? k
  | .moved k m => (s.jobs[k]?).map fun j => s.setPhase k (m.phase s j)
  | .retired k => s.retire? k
  | .resumed n => s.resume? n
  | .pinged => some { s with book := s.book.pingAll }
  | .shutDown => some { s with book := s.book.shutdownAll }
  | .closed conn => some { s with book := (s.book.close conn).2 }

/-- The message with which a receive loop answers the bytes of a request, if it does not start a job for it. -/
inductive Declines (text : Bytes) : Message → Prop where
  | malformed (e : Refusal) (parsed : Request.parse text = .error e) : Declines text (.rejected none e.error.message)
  | unstartable (r : Request) (e : BeginError) (parsed : Request.parse text = .ok r) :
    Declines text (.rejected r.key e.message)

/-- A job, once its message was handed to the queue. -/
def ChannelJob.handed (j : ChannelJob) (ticket : Nat) : Delivery → ChannelJob
  | .queued => j.answered true
  | .closed => j.answered false
  | .waits => { j with ticket? := some ticket }

/-- A connection, once its refusal was handed to the queue. -/
def Connection.handed (c : Connection) (ticket : Nat) : Delivery → Connection
  | .waits => { c with receiving := .waiting ticket }
  | _ => c.refused

theorem ChannelJob.push_eq (j : ChannelJob) (b : ChannelBook) (ticket : Nat) (m : Message) :
    j.push b ticket m =
      (j.handed ticket (b.send j.channel ticket m.text).1, (b.send j.channel ticket m.text).2) := by
  unfold push
  rcases b.send j.channel ticket m.text with ⟨_ | _ | _, b'⟩ <;> rfl

theorem Connection.refuse?_eq_some {c : Connection} {b : ChannelBook} {ticket : Nat}
    {changed : Connection × ChannelBook} (h : c.refuse? b ticket = some changed) :
    ∃ m, c.receiving = .refusing m ∧
      changed = (c.handed ticket (b.send c.channel ticket m.text).1, (b.send c.channel ticket m.text).2) := by
  unfold refuse? at h
  split at h
  · rename_i m hreceiving
    refine ⟨m, hreceiving, ?_⟩
    rcases hsend : b.send c.channel ticket m.text with ⟨delivery, b'⟩
    simp only [hsend, Option.some.injEq] at h
    rw [← h]
    cases delivery <;> rfl
  · cases h

/-! ## What the receive loop takes -/

/-- What a receive loop makes of the next thing that its client sent. -/
inductive Connection.Takes (c : Connection) (b : ChannelBook) (config : ServiceConfig) (registry : Registry) :
    Inbound → Connection → ChannelBook → Option ChannelJob → Prop where
  | parted (i : Inbound) (rest : List Inbound) (next : c.inbound = i :: rest) (parting : i.parting = true) :
    Takes c b config registry i ({ c with inbound := rest }.leave b).1 ({ c with inbound := rest }.leave b).2 none
  | skipped (i : Inbound) (rest : List Inbound) (next : c.inbound = i :: rest) (other : ∀ text, i ≠ .request text) :
    Takes c b config registry i { c with inbound := rest } b none
  | declined (text : Bytes) (rest : List Inbound) (m : Message) (next : c.inbound = .request text :: rest)
      (declines : Declines text m) :
    Takes c b config registry (.request text) { c with inbound := rest, receiving := .refusing m } b none
  | started (text : Bytes) (rest : List Inbound) (r : Request) (id : JobId) (b' : ChannelBook)
      (next : c.inbound = .request text :: rest) (parsed : Request.parse text = .ok r)
      (begun : b.beginJob c.conn (r.key.getD "") = .ok (id, b')) :
    Takes c b config registry (.request text) { c with inbound := rest } (b'.modify c.channel Outbound.addSender)
      (some { conn := c.conn, channel := c.channel, id, phase := Phase.start r config registry })

/-- The forwarding loop takes the first frame, or stops because none is queued and none will be. -/
theorem Connection.forward?_cases {c : Connection} {b : ChannelBook} {changed : Connection × ChannelBook}
    (h : c.forward? b = some changed) : c.forwarding = .idle ∧
      ((∃ f o o', b.channels[c.channel]? = some o ∧ o.take? = some (f, o') ∧
          changed = ({ c with forwarding := .writing f }, b.modify c.channel fun _ => o')) ∨
        b.take? c.channel = none ∧ b.ended c.channel = true ∧ changed = c.stop b) := by
  unfold Connection.forward? at h
  split at h
  · rename_i hidle
    refine ⟨hidle, ?_⟩
    cases htake : b.take? c.channel with
    | some taken =>
      simp only [htake, Option.some.injEq] at h
      subst h
      unfold ChannelBook.take? ChannelBook.channel? at htake
      cases ho : b.channels[c.channel]? with
      | none => simp [ho] at htake
      | some o =>
        simp only [ho] at htake
        obtain ⟨⟨f, o'⟩, ho', rfl⟩ := Option.map_eq_some_iff.mp htake
        exact .inl ⟨f, o, o', rfl, ho', rfl⟩
    | none =>
      simp only [htake, Option.ite_none_right_eq_some, Option.some.injEq] at h
      exact .inr ⟨rfl, h.1, h.2.symm⟩
  · cases h

theorem Connection.takes_of_take? {c c' : Connection} {b b' : ChannelBook} {config : ServiceConfig}
    {registry : Registry} {i : Inbound} {job : Option ChannelJob}
    (h : c.take? b config registry = some (i, c', b', job)) :
    c.receiving = .listening ∧ c.Takes b config registry i c' b' job := by
  unfold take? at h
  split at h
  · rename_i i' rest hreceiving hinbound
    refine ⟨hreceiving, ?_⟩
    simp only [Option.some.injEq, Prod.mk.injEq] at h
    obtain ⟨rfl, h⟩ := h
    split at h
    · rename_i hparting
      cases h
      exact .parted _ rest hinbound hparting
    · split at h
      · rename_i text _
        unfold request at h
        cases hparse : Request.parse text with
        | error e =>
          rw [hparse] at h
          cases h
          exact .declined text rest _ hinbound (.malformed e hparse)
        | ok r =>
          rw [hparse] at h
          simp only at h
          cases hbegin : b.beginJob c.conn (r.key.getD "") with
          | error e =>
            rw [hbegin] at h
            cases h
            exact .declined text rest _ hinbound (.unstartable r e hparse)
          | ok begun =>
            rw [hbegin] at h
            cases h
            exact .started text rest r begun.1 begun.2 hinbound hparse hbegin
      · rename_i hother
        cases h
        exact .skipped _ rest hinbound hother
  · cases h

/-! ## What quiet steps leave as it is -/

/-- A loop may leave or stop; a receive loop that leaves closes the channel. -/
structure Connection.Keeps (c c' : Connection) (b : ChannelBook) : Prop where
  channel : c'.channel = c.channel
  inbound : c'.inbound = c.inbound
  receiving : c'.receiving = c.receiving ∨
    (c.receiving = .listening ∧ c'.receiving = .left ∧ b.closed c.channel = true)

theorem Connection.Keeps.refl (c : Connection) (b : ChannelBook) : c.Keeps c b := ⟨rfl, rfl, .inl rfl⟩

/-- A job may give back its slot or let go of the channel. -/
structure ChannelJob.Keeps (j j' : ChannelJob) : Prop where
  channel : j'.channel = j.channel
  phase : j'.phase = j.phase
  ticket : j'.ticket? = j.ticket?
  released : j.released = true → j'.released = true

theorem ChannelJob.Keeps.refl (j : ChannelJob) : j.Keeps j := ⟨rfl, rfl, rfl, fun h => h⟩

namespace ChannelServer

variable {s s' : ChannelServer} {n k : Nat} {e : ServerEvent}

/-! ## The steps that concern messages -/

theorem onConnection?_eq_some {step : Connection → ChannelBook → Option (Connection × ChannelBook)}
    (h : s.onConnection? n step = some s') :
    ∃ c changed, s.connections[n]? = some c ∧ step c s.book = some changed ∧ s' = s.setConnection n changed := by
  unfold onConnection? at h
  cases hc : s.connections[n]? with
  | none => simp [hc] at h
  | some c =>
    simp only [hc] at h
    obtain ⟨changed, hstep, rfl⟩ := Option.map_eq_some_iff.mp h
    exact ⟨c, changed, rfl, hstep, rfl⟩

theorem step?_accepted {conn : String} (h : s.step? (.accepted conn) = some s') : s' = s.accept conn := by
  simp only [step?, Option.ite_none_left_eq_some, Option.some.injEq] at h
  exact h.2.symm

theorem step?_arrived {i : Inbound} (h : s.step? (.arrived n i) = some s') :
    ∃ c, s.connections[n]? = some c ∧ s' = { s with connections := s.connections.set n (c.arrive i) } := by
  simp only [step?, Option.ite_none_right_eq_some, Option.some.injEq] at h
  obtain ⟨hlt, rfl⟩ := h
  have hc := List.getElem?_eq_getElem hlt
  refine ⟨_, hc, ?_⟩
  rw [arrive, List.modify_eq_set_getElem?, hc]
  rfl

theorem step?_moved {m : JobMove} (h : s.step? (.moved k m) = some s') :
    ∃ j, s.jobs[k]? = some j ∧ s' = { s with jobs := s.jobs.set k { j with phase := m.phase s j } } := by
  obtain ⟨j, hj, rfl⟩ := Option.map_eq_some_iff.mp h
  refine ⟨j, hj, ?_⟩
  rw [setPhase, List.modify_eq_set_getElem?, hj]
  rfl

theorem step?_taken (h : s.step? (.taken n) = some s') :
    ∃ c i c' b job, s.connections[n]? = some c ∧ c.receiving = .listening ∧
      c.Takes s.book s.config s.registry i c' b job ∧
      s' = { s with connections := s.connections.set n c', book := b, jobs := s.jobs ++ job.toList } := by
  obtain ⟨⟨i, t⟩, ht, rfl⟩ := Option.map_eq_some_iff.mp h
  unfold take? at ht
  cases hc : s.connections[n]? with
  | none => simp [hc] at ht
  | some c =>
    simp only [hc] at ht
    obtain ⟨⟨i', c', b, job⟩, htake, heq⟩ := Option.map_eq_some_iff.mp ht
    cases heq
    obtain ⟨hlistens, htakes⟩ := Connection.takes_of_take? htake
    exact ⟨c, _, c', b, job, rfl, hlistens, htakes, rfl⟩

theorem step?_refused (h : s.step? (.refused n) = some s') :
    ∃ c m, s.connections[n]? = some c ∧ c.receiving = .refusing m ∧
      s' = { s with
        connections := s.connections.set n
          (c.handed s.nextTicket (s.book.send c.channel s.nextTicket m.text).1)
        book := (s.book.send c.channel s.nextTicket m.text).2
        nextTicket := s.nextTicket + 1 } := by
  obtain ⟨t, ht, rfl⟩ := Option.map_eq_some_iff.mp h
  obtain ⟨c, changed, hc, hstep, rfl⟩ := onConnection?_eq_some ht
  obtain ⟨m, hreceiving, rfl⟩ := Connection.refuse?_eq_some hstep
  exact ⟨c, m, hc, hreceiving, rfl⟩

theorem step?_sent (h : s.step? (.sent k) = some s') :
    ∃ j m, s.jobs[k]? = some j ∧ j.ticket? = none ∧ j.phase.message? = some m ∧
      ((m.isLast = true ∧ j.released = false ∧
          s' = { s with
            jobs := s.jobs.set k { j with released := true }
            book := (s.book.endJob j.conn j.id).2
            nextTicket := s.nextTicket + 1 }) ∨
        ((m.isLast = true → j.released = true) ∧
          s' = { s with
            jobs := s.jobs.set k (j.handed s.nextTicket (s.book.send j.channel s.nextTicket m.text).1)
            book := (s.book.send j.channel s.nextTicket m.text).2
            nextTicket := s.nextTicket + 1 })) := by
  simp only [step?, send?] at h
  cases hj : s.jobs[k]? with
  | none => simp [hj] at h
  | some j =>
    simp only [hj] at h
    obtain ⟨changed, hsend, rfl⟩ := Option.map_eq_some_iff.mp h
    obtain ⟨m, hm, rfl⟩ := Option.map_eq_some_iff.mp hsend
    simp only [ChannelJob.message?, Option.ite_none_left_eq_some, Option.isSome_iff_ne_none, ne_eq,
      Decidable.not_not] at hm
    refine ⟨j, m, rfl, hm.1, hm.2, ?_⟩
    cases hlast : m.isLast with
    | false =>
      rw [ChannelJob.push_eq]
      exact .inr ⟨nofun, rfl⟩
    | true =>
      cases hreleased : j.released with
      | true =>
        rw [ChannelJob.push_eq]
        exact .inr ⟨fun _ => rfl, rfl⟩
      | false => exact .inl ⟨rfl, rfl, rfl⟩

theorem step?_resumed {n : ChannelNumber} (h : s.step? (.resumed n) = some s') :
    ∃ o ticket delivered o', s.book.channels[n]? = some o ∧ o.resume? = some (ticket, delivered, o') ∧
      s' = ({ s with book := s.book.modify n fun _ => o' } : ChannelServer).answer ticket delivered := by
  obtain ⟨⟨ticket, delivered, b⟩, hb, rfl⟩ := Option.map_eq_some_iff.mp h
  unfold ChannelBook.resume? ChannelBook.channel? at hb
  cases ho : s.book.channels[n]? with
  | none => simp [ho] at hb
  | some o =>
    simp only [ho] at hb
    obtain ⟨⟨t, d, o'⟩, ho', heq⟩ := Option.map_eq_some_iff.mp hb
    cases heq
    exact ⟨o, t, d, o', rfl, ho', rfl⟩

theorem step?_forwarded (h : s.step? (.forwarded n) = some s') :
    ∃ c, s.connections[n]? = some c ∧ c.forwarding = .idle ∧
      ((∃ f o o', s.book.channels[c.channel]? = some o ∧ o.take? = some (f, o') ∧
          s' = { s with
            connections := s.connections.set n { c with forwarding := .writing f }
            book := s.book.modify c.channel fun _ => o' }) ∨
        s.book.take? c.channel = none ∧ s' = s.setConnection n (c.stop s.book)) := by
  obtain ⟨c, changed, hc, hstep, rfl⟩ := onConnection?_eq_some h
  obtain ⟨hidle, ⟨f, o, o', ho, htake, rfl⟩ | ⟨hnone, -, rfl⟩⟩ := Connection.forward?_cases hstep
  · exact ⟨c, hc, hidle, .inl ⟨f, o, o', ho, htake, rfl⟩⟩
  · exact ⟨c, hc, hidle, .inr ⟨hnone, rfl⟩⟩

/-! ## When a step can be made -/

theorem isSome_taken {c : Connection} (hc : s.connections[n]? = some c) (hlistens : c.receiving = .listening)
    (hinbound : c.inbound ≠ []) : (s.step? (.taken n)).isSome = true := by
  cases hi : c.inbound with
  | nil => exact absurd hi hinbound
  | cons i rest => simp [step?, take?, hc, Connection.take?, hlistens, hi]

theorem isSome_refused {c : Connection} {m : Message} (hc : s.connections[n]? = some c)
    (hrefusing : c.receiving = .refusing m) : (s.step? (.refused n)).isSome = true := by
  simp [step?, refuse?, onConnection?, hc, Connection.refuse?, hrefusing]

theorem isSome_sent {j : ChannelJob} {m : Message} (hj : s.jobs[k]? = some j) (hticket : j.ticket? = none)
    (hm : j.phase.message? = some m) : (s.step? (.sent k)).isSome = true := by
  simp [step?, send?, hj, ChannelJob.send?, ChannelJob.message?, hticket, hm]

theorem isSome_resumed {o : Outbound} {n : ChannelNumber} (ho : s.book.channels[n]? = some o)
    (hwaiting : 0 < o.waiting.length) (hopen : o.closed = false) (hroom : o.queued.length < o.depth) :
    (s.step? (.resumed n)).isSome = true := by
  cases hw : o.waiting with
  | nil => simp [hw] at hwaiting
  | cons first rest =>
    simp [step?, resume?, ChannelBook.resume?, ChannelBook.channel?, ho, Outbound.resume?, hw, hopen, hroom]

/-! ## Quiet steps -/

/-- What stays as it is where no message is handed to a queue or taken out of it and no job moves. -/
structure Quiet (s s' : ChannelServer) : Prop where
  config : s'.config = s.config
  registry : s'.registry = s.registry
  book : s.book.Calm s'.book
  ticket : s.nextTicket ≤ s'.nextTicket
  connections : s'.connections.length = s.connections.length
  connection : ∀ (n : Nat) (c' : Connection), s'.connections[n]? = some c' →
    ∃ c : Connection, s.connections[n]? = some c ∧ c.Keeps c' s'.book
  jobs : s'.jobs.length = s.jobs.length
  job : ∀ (k : Nat) (j' : ChannelJob), s'.jobs[k]? = some j' →
    ∃ j : ChannelJob, s.jobs[k]? = some j ∧ j.Keeps j'

theorem Quiet.exists_connection (h : s.Quiet s') {c : Connection} (hc : s.connections[n]? = some c) :
    ∃ c', s'.connections[n]? = some c' ∧
      (c'.receiving = c.receiving ∨ (c.receiving = .listening ∧ c'.receiving = .left)) := by
  have hlt : n < s'.connections.length := h.connections ▸ (List.getElem?_eq_some_iff.mp hc).1
  obtain ⟨c₀, hc₀, hkeeps⟩ := h.connection n _ (List.getElem?_eq_getElem hlt)
  rw [hc] at hc₀
  cases hc₀
  exact ⟨_, List.getElem?_eq_getElem hlt, hkeeps.receiving.imp_right fun hleft => ⟨hleft.1, hleft.2.1⟩⟩

theorem Quiet.exists_job (h : s.Quiet s') {j : ChannelJob} (hj : s.jobs[k]? = some j) :
    ∃ j', s'.jobs[k]? = some j' ∧ j.Keeps j' := by
  have hlt : k < s'.jobs.length := h.jobs ▸ (List.getElem?_eq_some_iff.mp hj).1
  obtain ⟨j₀, hj₀, hkeeps⟩ := h.job k _ (List.getElem?_eq_getElem hlt)
  rw [hj] at hj₀
  cases hj₀
  exact ⟨_, List.getElem?_eq_getElem hlt, hkeeps⟩

theorem quiet_book {b : ChannelBook} (h : s.book.Calm b) : s.Quiet { s with book := b } where
  config := rfl
  registry := rfl
  book := h
  ticket := Nat.le_refl _
  connections := rfl
  connection _ c hc := ⟨c, hc, .refl c _⟩
  jobs := rfl
  job _ j hj := ⟨j, hj, .refl j⟩

theorem quiet_connection {c c' : Connection} {b : ChannelBook} (hc : s.connections[n]? = some c) (hb : s.book.Calm b)
    (hkeeps : c.Keeps c' b) : s.Quiet (s.setConnection n (c', b)) where
  config := rfl
  registry := rfl
  book := hb
  ticket := Nat.le_refl _
  connections := List.length_set
  connection m d hd := by
    rcases getElem?_set_eq_some hd with ⟨rfl, rfl⟩ | ⟨-, hd⟩
    · exact ⟨c, hc, hkeeps⟩
    · exact ⟨d, hd, .refl d b⟩
  jobs := rfl
  job _ j hj := ⟨j, hj, .refl j⟩

theorem quiet_job {j j' : ChannelJob} {b : ChannelBook} {ticket : Nat} (hj : s.jobs[k]? = some j)
    (hb : s.book.Calm b) (hticket : s.nextTicket ≤ ticket) (hkeeps : j.Keeps j') :
    s.Quiet { s with jobs := s.jobs.set k j', book := b, nextTicket := ticket } where
  config := rfl
  registry := rfl
  book := hb
  ticket := hticket
  connections := rfl
  connection _ c hc := ⟨c, hc, .refl c _⟩
  jobs := List.length_set
  job m i hi := by
    rcases getElem?_set_eq_some hi with ⟨rfl, rfl⟩ | ⟨-, hi⟩
    · exact ⟨j, hj, hkeeps⟩
    · exact ⟨i, hi, .refl i⟩

theorem closed_cancel (b : ChannelBook) (n : ChannelNumber) : (b.cancel n).closed n = true := by
  unfold ChannelBook.closed ChannelBook.channel? ChannelBook.cancel
  cases ho : b.channels[n]? with
  | none => simp [ChannelBook.modify, ho]
  | some o => simp [ChannelBook.modify_self ho, Outbound.cancel, Outbound.closed]

/-- A receive loop that leaves closes its channel. -/
theorem calm_leave (c : Connection) (b : ChannelBook) :
    b.Calm (c.leave b).2 ∧ (c.leave b).2.closed c.channel = true := by
  have hdrop := ChannelBook.calm_modify Outbound.calm_dropSender (b.closeGuard c.conn c.channel) c.channel
  refine ⟨(b.calm_closeGuard c.conn c.channel).trans hdrop, ?_⟩
  have hclose := ((b.cancel c.channel).calm_close c.conn).closed c.channel (closed_cancel b c.channel)
  exact hdrop.closed c.channel hclose

theorem calm_stop (c : Connection) (b : ChannelBook) : b.Calm (c.stop b).2 :=
  ChannelBook.calm_modify Outbound.calm_dropReceiver b c.channel

theorem onConnection?_getD {step : Connection → ChannelBook → Connection × ChannelBook} {c : Connection}
    (hc : s.connections[n]? = some c) :
    (s.onConnection? n fun c b => some (step c b)).getD s = s.setConnection n (step c s.book) := by
  simp [onConnection?, hc]

theorem step?_written (h : s.step? (.written n) = some s') :
    ∃ c f, s.connections[n]? = some c ∧ c.forwarding = .writing f ∧ s' = s.setConnection n (c.written s.book) := by
  simp only [step?, Option.ite_none_right_eq_some, Option.some.injEq] at h
  obtain ⟨hsome, rfl⟩ := h
  obtain ⟨f, hf⟩ := Option.isSome_iff_exists.mp hsome
  obtain ⟨c, hc, hframe⟩ := Option.bind_eq_some_iff.mp hf
  refine ⟨c, f, hc, ?_, onConnection?_getD hc⟩
  cases hforwarding : c.forwarding <;> simp_all [Connection.frame?]

theorem quiet_leave (h : s.leave? n = some s') : s.Quiet s' := by
  obtain ⟨c, changed, hc, hstep, rfl⟩ := onConnection?_eq_some h
  unfold Connection.leaveIfCancelled? at hstep
  split at hstep
  · rename_i hlistens
    split at hstep
    · cases hstep
      have hleave := calm_leave c s.book
      exact quiet_connection hc hleave.1 ⟨rfl, rfl, .inr ⟨hlistens, rfl, hleave.2⟩⟩
    · cases hstep
  · cases hstep

theorem quiet_written {c : Connection} {f : OutFrame} (hc : s.connections[n]? = some c)
    (hforwarding : c.forwarding = .writing f) : s.Quiet (s.setConnection n (c.written s.book)) := by
  unfold Connection.written
  rw [hforwarding]
  cases f with
  | close => exact quiet_connection hc (calm_stop c s.book) ⟨rfl, rfl, .inl rfl⟩
  | _ => exact quiet_connection hc (.refl s.book) ⟨rfl, rfl, .inl rfl⟩

/-- A job that retires gives back its slot and lets go of the channel. -/
theorem quiet_retire (h : s.retire? k = some s') : s.Quiet s' := by
  unfold retire? at h
  cases hj : s.jobs[k]? with
  | none => simp [hj] at h
  | some j =>
    simp only [hj] at h
    obtain ⟨changed, hretire, rfl⟩ := Option.map_eq_some_iff.mp h
    simp only [ChannelJob.retire?, Option.ite_none_right_eq_some, Option.some.injEq] at hretire
    obtain ⟨-, rfl⟩ := hretire
    have hdrop := ChannelBook.calm_modify Outbound.calm_dropSender (s.book.endJob j.conn j.id).2 j.channel
    have hcalm := (s.book.calm_endJob j.conn j.id).trans hdrop
    exact quiet_job hj hcalm (Nat.le_refl _) ⟨rfl, rfl, rfl, fun _ => rfl⟩

theorem quiet_step (h : s.step? e = some s') (he : e.isQuiet = true) : s.Quiet s' := by
  cases e with
  | left n => exact quiet_leave h
  | written n =>
    obtain ⟨c, f, hc, hforwarding, rfl⟩ := step?_written h
    exact quiet_written hc hforwarding
  | writeFailed n =>
    simp only [step?, Option.ite_none_right_eq_some, Option.some.injEq] at h
    obtain ⟨hsome, rfl⟩ := h
    obtain ⟨f, hf⟩ := Option.isSome_iff_exists.mp hsome
    obtain ⟨c, hc, -⟩ := Option.bind_eq_some_iff.mp hf
    rw [writeFailed, onConnection?_getD hc]
    exact quiet_connection hc ((s.book.calm_cancel c.channel).trans (calm_stop c _)) ⟨rfl, rfl, .inl rfl⟩
  | stopped n =>
    simp only [step?, Option.ite_none_right_eq_some, Option.some.injEq] at h
    obtain ⟨hlt, rfl⟩ := h
    have hc := List.getElem?_eq_getElem hlt
    rw [stop, onConnection?_getD hc]
    exact quiet_connection hc (calm_stop _ s.book) ⟨rfl, rfl, .inl rfl⟩
  | retired k => exact quiet_retire h
  | pinged =>
    cases h
    exact quiet_book s.book.calm_pingAll
  | shutDown =>
    cases h
    exact quiet_book s.book.calm_shutdownAll
  | closed conn =>
    cases h
    exact quiet_book (s.book.calm_close conn)
  | _ => cases he

end ChannelServer

/-- Whatever a receive loop makes of what it takes, its client sent that first. -/
theorem Connection.Takes.next_inbound {c c' : Connection} {b b' : ChannelBook} {config : ServiceConfig}
    {registry : Registry} {i : Inbound} {job : Option ChannelJob} (h : c.Takes b config registry i c' b' job) :
    c.inbound = i :: c'.inbound ∧ c'.channel = c.channel ∧ b.Calm b' := by
  cases h with
  | parted i rest next parting => exact ⟨next, rfl, (ChannelServer.calm_leave _ b).1⟩
  | skipped i rest next other => exact ⟨next, rfl, .refl b⟩
  | declined text rest m next declines => exact ⟨next, rfl, .refl b⟩
  | started text rest r id b' next parsed begun =>
    have hsame : b.Calm b' := .of_channels (ChannelBook.channels_beginJob begun)
    exact ⟨next, rfl, hsame.trans (ChannelBook.calm_modify Outbound.calm_addSender b' c.channel)⟩

end FrameStream
