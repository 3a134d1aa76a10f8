import FrameStream.Proofs.Channel.Mirror
import FrameStream.Proofs.Channel.Speech

/-!
# Who answers a letter

A letter that a receive loop has taken is answered by the loop itself or by the job that was started for it, never by
both. The loop declines it with one message; the job says what its phase tells (`Speech`). What was said so far
follows from where the loop or the job stands, and every step keeps it so (`Sound`).
-/

namespace FrameStream
namespace Docket

/-- Where the job for a letter stands. -/
structure JobStands (d : Docket) (config : ServiceConfig) (registry : Registry) (l : Letter) (j : ChannelJob) :
    Prop where
  channel : j.channel = l.connection
  taken : l.place < d.taken l.connection
  unhindered : l ∈ d.unhindered
  speech : ∃ text r, d.letter? l = some (.request text) ∧ Request.parse text = .ok r ∧
    Speech r config registry (d.server.book.closed l.connection) j.phase (d.heard l)
  waits : ∀ ticket, j.ticket? = some ticket → ∃ m, j.phase.message? = some m ∧ ⟨ticket, l, m⟩ ∈ d.waiters

/-- The receive loop is about to decline a letter. -/
structure Declining (d : Docket) (l : Letter) (m : Message) : Prop where
  last : l.place + 1 = d.taken l.connection
  silent : d.heard l = []
  jobless : l ∉ d.origins
  declines : ∃ text, d.letter? l = some (.request text) ∧ Declines text m

/-- Where the receive loop of a connection stands. -/
def LoopStands (d : Docket) (n : Nat) : Receiving → Prop
  | .listening => True
  | .refusing m => d.Declining (d.last n) m
  | .waiting ticket => ∃ m, d.Declining (d.last n) m ∧ ⟨ticket, d.last n, m⟩ ∈ d.waiters
  | .left => d.server.book.closed n = true

/-- The receive loop of a connection is about to decline what it took last. -/
def Busy (d : Docket) (n : Nat) : Prop :=
  ∃ c, d.server.connections[n]? = some c ∧ c.receiving ≠ .listening ∧ c.receiving ≠ .left

/-- Where a letter stands for which no job was started. -/
inductive Rests (d : Docket) (l : Letter) : Prop where
  | coming (later : d.taken l.connection ≤ l.place) (silent : d.heard l = [])
  | declining (last : l.place + 1 = d.taken l.connection) (busy : d.Busy l.connection)
  | skipped (taken : l.place < d.taken l.connection) (silent : d.heard l = [])
      (other : ∀ text, d.letter? l ≠ some (.request text))
  | declined (taken : l.place < d.taken l.connection) (text : Bytes) (m : Message)
      (request : d.letter? l = some (.request text)) (declines : Declines text m) (said : d.heard l = [m])
  | unheard (taken : l.place < d.taken l.connection) (silent : d.heard l = [])
      (gone : d.server.book.closed l.connection = true)

/-- Who says the message of a waiter. -/
inductive Owned (d : Docket) (w : Waiter) : Prop where
  | job (k : Nat) (j : ChannelJob) (origin : d.origins[k]? = some w.letter) (at_ : d.server.jobs[k]? = some j)
      (waits : j.ticket? = some w.ticket)
  | loop (c : Connection) (at_ : d.server.connections[w.letter.connection]? = some c)
      (waits : c.receiving = .waiting w.ticket) (last : w.letter = d.last w.letter.connection)

structure Answered (d : Docket) (config : ServiceConfig) (registry : Registry) : Prop where
  setting : d.server.config = config ∧ d.server.registry = registry
  distinct : d.origins.Nodup
  job : ∀ (k : Nat) (j : ChannelJob) (l : Letter), d.server.jobs[k]? = some j → d.origins[k]? = some l →
    d.JobStands config registry l j
  loop : ∀ (n : Nat) (c : Connection), d.server.connections[n]? = some c → d.LoopStands n c.receiving
  rest : ∀ l, l ∉ d.origins → d.Rests l
  owned : ∀ w ∈ d.waiters, d.Owned w

structure Sound (d : Docket) (config : ServiceConfig) (registry : Registry) : Prop where
  wired : d.Wired
  mirrored : d.Mirrored
  answered : d.Answered config registry

variable {d d' : Docket} {s : ChannelServer} {l : Letter} {j j' : ChannelJob} {m : Message} {n k : Nat}
  {config : ServiceConfig} {registry : Registry}

/-! ## What does not concern a letter -/

/-- All that `d` knows of a letter is still so in `d'`. -/
structure Agrees (d d' : Docket) (l : Letter) : Prop where
  taken : d.taken l.connection ≤ d'.taken l.connection
  letter : l.place < d.taken l.connection → d'.letter? l = d.letter? l
  heard : d'.heard l = d.heard l
  unhindered : l ∈ d.unhindered → l ∈ d'.unhindered
  closed : l.place < d.taken l.connection → d.server.book.closed l.connection = true →
    d'.server.book.closed l.connection = true
  waits : ∀ w ∈ d.waiters, w.letter = l → w ∈ d'.waiters

theorem JobStands.agrees (h : d.JobStands config registry l j) (ha : d.Agrees d' l) :
    d'.JobStands config registry l j where
  channel := h.channel
  taken := Nat.lt_of_lt_of_le h.taken ha.taken
  unhindered := ha.unhindered h.unhindered
  speech := by
    obtain ⟨text, r, hletter, hparse, hspeech⟩ := h.speech
    refine ⟨text, r, (ha.letter h.taken).trans hletter, hparse, ?_⟩
    rw [ha.heard]
    exact hspeech.mono (ha.closed h.taken)
  waits ticket ht := by
    obtain ⟨m, hm, hw⟩ := h.waits ticket ht
    exact ⟨m, hm, ha.waits _ hw rfl⟩

/-- Giving back the slot and letting go of the channel are nothing to the client. -/
theorem JobStands.keeps (h : d.JobStands config registry l j) (hkeeps : j.Keeps j') :
    d.JobStands config registry l j' where
  channel := hkeeps.channel.trans h.channel
  taken := h.taken
  unhindered := h.unhindered
  speech := by
    rw [hkeeps.phase]
    exact h.speech
  waits ticket ht := by
    rw [hkeeps.phase]
    exact h.waits ticket (hkeeps.ticket ▸ ht)

theorem Declining.agrees (h : d.Declining l m) (ha : d.Agrees d' l)
    (htaken : d'.taken l.connection = d.taken l.connection) (hjobless : l ∉ d'.origins) : d'.Declining l m where
  last := htaken ▸ h.last
  silent := ha.heard ▸ h.silent
  jobless := hjobless
  declines := by
    obtain ⟨text, hletter, hdeclines⟩ := h.declines
    exact ⟨text, (ha.letter (h.last ▸ Nat.lt_succ_self _)).trans hletter, hdeclines⟩

theorem LoopStands.agrees {r : Receiving} (h : d.LoopStands n r)
    (ha : d.last n ∉ d.origins → d.Agrees d' (d.last n)) (htaken : d'.taken n = d.taken n)
    (hjobless : d.last n ∉ d.origins → d.last n ∉ d'.origins)
    (hclosed : d.server.book.closed n = true → d'.server.book.closed n = true) : d'.LoopStands n r := by
  have hlast : d'.last n = d.last n := by rw [last, last, htaken]
  cases r with
  | listening => trivial
  | refusing m =>
    have hd : d.Declining (d.last n) m := h
    simp only [LoopStands, hlast]
    exact hd.agrees (ha hd.jobless) htaken (hjobless hd.jobless)
  | waiting ticket =>
    obtain ⟨m, hd, hw⟩ := h
    have hagrees := ha hd.jobless
    exact ⟨m, hlast ▸ hd.agrees hagrees htaken (hjobless hd.jobless), hlast ▸ hagrees.waits _ hw rfl⟩
  | left => exact hclosed h

theorem Rests.agrees (h : d.Rests l) (ha : d.Agrees d' l) (htaken : d'.taken l.connection = d.taken l.connection)
    (hbusy : l.place + 1 = d.taken l.connection → d.Busy l.connection → d'.Busy l.connection) : d'.Rests l := by
  cases h with
  | coming later silent => exact .coming (htaken ▸ later) (ha.heard ▸ silent)
  | declining last busy => exact .declining (htaken ▸ last) (hbusy last busy)
  | skipped taken silent other =>
    exact .skipped (htaken ▸ taken) (ha.heard ▸ silent) fun text => (ha.letter taken) ▸ other text
  | declined taken text m request declines said =>
    exact .declined (htaken ▸ taken) text m ((ha.letter taken).trans request) declines (ha.heard ▸ said)
  | unheard taken silent gone => exact .unheard (htaken ▸ taken) (ha.heard ▸ silent) (ha.closed taken gone)

/-! ## Steps that say nothing -/

/-- Nothing is taken or said in the step from `d` to `d'`, and every job stands where it stood. -/
structure Stays (d d' : Docket) : Prop where
  setting : d'.server.config = d.server.config ∧ d'.server.registry = d.server.registry
  agrees : ∀ l, d.Agrees d' l
  taken : d'.taken = d.taken
  origins : d'.origins = d.origins
  waiters : d'.waiters = d.waiters
  /-- A loop may leave, and a new one may begin to listen. -/
  loop : ∀ (n : Nat) (c' : Connection), d'.server.connections[n]? = some c' → c'.receiving = .listening ∨
    (c'.receiving = .left ∧ d'.server.book.closed n = true) ∨
    ∃ c : Connection, d.server.connections[n]? = some c ∧ c'.receiving = c.receiving ∧
      (d.server.book.closed n = true → d'.server.book.closed n = true)
  connection : ∀ (n : Nat) (c : Connection), d.server.connections[n]? = some c →
    ∃ c', d'.server.connections[n]? = some c' ∧ (c'.receiving = c.receiving ∨ c.receiving = .listening)
  job : ∀ (k : Nat) (j' : ChannelJob), d'.server.jobs[k]? = some j' →
    ∃ j : ChannelJob, d.server.jobs[k]? = some j ∧ j.Keeps j'
  kept : ∀ (k : Nat) (j : ChannelJob), d.server.jobs[k]? = some j →
    ∃ j' : ChannelJob, d'.server.jobs[k]? = some j' ∧ j.Keeps j'

theorem Answered.stays (h : d.Answered config registry) (hs : d.Stays d') : d'.Answered config registry := by
  refine ⟨?_, hs.origins ▸ h.distinct, fun k j' l hj' hl => ?_, fun n c' hc' => ?_, fun l hl => ?_, fun w hw => ?_⟩
  · exact ⟨hs.setting.1.trans h.setting.1, hs.setting.2.trans h.setting.2⟩
  · obtain ⟨j, hj, hkeeps⟩ := hs.job k j' hj'
    exact ((h.job k j l hj (hs.origins ▸ hl)).agrees (hs.agrees l)).keeps hkeeps
  · rcases hs.loop n c' hc' with hlistens | ⟨hleft, hclosed⟩ | ⟨c, hc, hsame, hclosed⟩
    · rw [hlistens]
      trivial
    · rw [hleft]
      exact hclosed
    · rw [hsame]
      exact (h.loop n c hc).agrees (fun _ => hs.agrees _) (by rw [hs.taken]) (hs.origins ▸ id) hclosed
  · refine (h.rest l (hs.origins ▸ hl)).agrees (hs.agrees l) (by rw [hs.taken]) fun _ hbusy => ?_
    obtain ⟨c, hc, hlistens, hleft⟩ := hbusy
    obtain ⟨c', hc', hsame | hlistens'⟩ := hs.connection _ c hc
    · exact ⟨c', hc', hsame ▸ hlistens, hsame ▸ hleft⟩
    · exact absurd hlistens' hlistens
  · cases h.owned w (hs.waiters ▸ hw) with
    | job k j origin at_ waits =>
      obtain ⟨j', hj', hkeeps⟩ := hs.kept k j at_
      exact .job k j' (hs.origins ▸ origin) hj' (hkeeps.ticket.trans waits)
    | loop c at_ waits last =>
      obtain ⟨c', hc', hsame | hlistens⟩ := hs.connection _ c at_
      · exact .loop c' hc' (hsame.trans waits) (by rw [last, Docket.last, Docket.last, hs.taken])
      · rw [hlistens] at waits
        cases waits

theorem stays_quiet (hwired : d.Wired) (hq : d.server.Quiet s) : d.Stays { d with server := s } where
  setting := ⟨hq.config, hq.registry⟩
  agrees l :=
    { taken := Nat.le_refl _
      letter := fun _ => rfl
      heard := rfl
      unhindered := fun h => h
      closed := fun _ => hq.book.closed l.connection
      waits := fun _ hw _ => hw }
  taken := rfl
  origins := rfl
  waiters := rfl
  loop n c' hc' := by
    obtain ⟨c, hc, hkeeps⟩ := hq.connection n c' hc'
    rcases hkeeps.receiving with hsame | ⟨-, hleft, hclosed⟩
    · exact .inr (.inr ⟨c, hc, hsame, hq.book.closed n⟩)
    · exact .inr (.inl ⟨hleft, hwired.channel n c hc ▸ hclosed⟩)
  connection _ _ hc := by
    obtain ⟨c', hc', hreceiving⟩ := hq.exists_connection hc
    exact ⟨c', hc', hreceiving.imp_right And.left⟩
  job := hq.job
  kept _ _ hj := hq.exists_job hj

theorem Sound.quiet (h : d.Sound config registry) (hq : d.server.Quiet s) :
    ({ d with server := s } : Docket).Sound config registry :=
  ⟨h.wired.quiet hq, h.mirrored.calm hq.book hq.ticket, h.answered.stays (stays_quiet h.wired hq)⟩

/-! ## Somebody speaks to a client -/

/-- Whatever does not concern the letter `l` is in `d'` as it is in `d`. -/
structure Beside (d d' : Docket) (l : Letter) : Prop where
  setting : d'.server.config = d.server.config ∧ d'.server.registry = d.server.registry
  taken : d'.taken = d.taken
  arrived : d'.arrived = d.arrived
  origins : d'.origins = d.origins
  unhindered : d'.unhindered = d.unhindered
  closed : ∀ n, d'.server.book.closed n = d.server.book.closed n
  heard : ∀ other ≠ l, d'.heard other = d.heard other
  kept : ∀ w ∈ d.waiters, w.letter ≠ l → w ∈ d'.waiters

theorem Beside.agrees (h : d.Beside d' l) {other : Letter} (hne : other ≠ l) : d.Agrees d' other where
  taken := Nat.le_of_eq (by rw [h.taken])
  letter _ := by rw [letter?, letter?, h.arrived]
  heard := h.heard other hne
  unhindered := by
    rw [h.unhindered]
    exact id
  closed _ := by
    rw [h.closed]
    exact id
  waits w hw hl := h.kept w hw (hl ▸ hne)

/-- The job for a letter speaks; all others stand where they stood. -/
theorem Answered.job_spoke (h : d.Answered config registry) (hb : d.Beside d' l) (hl : d.origins[k]? = some l)
    (hj : d.server.jobs[k]? = some j) (hjobs : d'.server.jobs = d.server.jobs.set k j')
    (hconnections : d'.server.connections = d.server.connections) (hstands : d'.JobStands config registry l j')
    (howned : ∀ w ∈ d'.waiters, (w ∈ d.waiters ∧ w.letter ≠ l) ∨ (w.letter = l ∧ j'.ticket? = some w.ticket)) :
    d'.Answered config registry := by
  have hmem : l ∈ d.origins := List.mem_of_getElem? hl
  have hlt : k < d.server.jobs.length := (List.getElem?_eq_some_iff.mp hj).1
  refine ⟨?_, hb.origins ▸ h.distinct, fun i i' l' hi hl' => ?_, fun n c hc => ?_, fun l' hl' => ?_, fun w hw => ?_⟩
  · exact ⟨hb.setting.1.trans h.setting.1, hb.setting.2.trans h.setting.2⟩
  · rw [hb.origins] at hl'
    rw [hjobs] at hi
    rcases getElem?_set_eq_some hi with ⟨rfl, rfl⟩ | ⟨hik, hi⟩
    · rw [hl] at hl'
      cases hl'
      exact hstands
    · have hne : l' ≠ l := fun heq => hik 
        ((List.getElem?_inj (List.getElem?_eq_some_iff.mp hl).1 h.distinct).mp (by rw [hl, hl', heq]))
      exact (h.job i i' l' hi hl').agrees (hb.agrees hne)
  · rw [hconnections] at hc
    refine (h.loop n c hc).agrees (fun hjobless => hb.agrees fun heq => hjobless (heq ▸ hmem)) (by rw [hb.taken])
      (hb.origins ▸ id) ?_
    rw [hb.closed]
    exact id
  · rw [hb.origins] at hl'
    refine (h.rest l' hl').agrees (hb.agrees fun heq => hl' (heq ▸ hmem)) (by rw [hb.taken]) fun _ hbusy => ?_
    obtain ⟨c, hc, hreceiving⟩ := hbusy
    exact ⟨c, hconnections ▸ hc, hreceiving⟩
  · rcases howned w hw with ⟨hold, hne⟩ | ⟨heq, hticket⟩
    · cases h.owned w hold with
      | job i i' origin at_ waits =>
        have hik : k ≠ i := by
          rintro rfl
          rw [hl] at origin
          exact hne (Option.some.inj origin).symm
        exact .job i i' (hb.origins ▸ origin) (by rw [hjobs, List.getElem?_set_ne hik]; exact at_) waits
      | loop c at_ waits last =>
        exact .loop c (hconnections ▸ at_) waits (by rw [last, Docket.last, Docket.last, hb.taken])
    · exact .job k j' (by rw [hb.origins, hl, heq]) (by rw [hjobs, List.getElem?_set_self hlt]) hticket

/-- The receive loop of a connection speaks about the letter it took last; everybody else stands where they stood. -/
theorem Answered.loop_spoke (h : d.Answered config registry) {c c' : Connection} (hb : d.Beside d' (d.last n))
    (hc : d.server.connections[n]? = some c) (hjobless : d.last n ∉ d.origins)
    (hconnections : d'.server.connections = d.server.connections.set n c') (hjobs : d'.server.jobs = d.server.jobs)
    (hstands : d'.LoopStands n c'.receiving) (hrest : d'.Rests (d.last n))
    (howned : ∀ w ∈ d'.waiters, (w ∈ d.waiters ∧ w.letter ≠ d.last n) ∨
      (w.letter = d.last n ∧ c'.receiving = .waiting w.ticket)) :
    d'.Answered config registry := by
  have hlt : n < d.server.connections.length := (List.getElem?_eq_some_iff.mp hc).1
  have hlast : ∀ m, d'.last m = d.last m := fun m => by rw [last, last, hb.taken]
  refine ⟨?_, hb.origins ▸ h.distinct, fun k j l hj hl => ?_, fun m b hm => ?_, fun l hl => ?_, fun w hw => ?_⟩
  · exact ⟨hb.setting.1.trans h.setting.1, hb.setting.2.trans h.setting.2⟩
  · rw [hb.origins] at hl
    rw [hjobs] at hj
    have hne : l ≠ d.last n := fun heq => hjobless (heq ▸ List.mem_of_getElem? hl)
    exact (h.job k j l hj hl).agrees (hb.agrees hne)
  · rw [hconnections] at hm
    rcases getElem?_set_eq_some hm with ⟨rfl, rfl⟩ | ⟨hnm, hm⟩
    · exact hstands
    · have hne : d.last m ≠ d.last n := fun heq => hnm (congrArg Letter.connection heq).symm
      refine (h.loop m b hm).agrees (fun _ => hb.agrees hne) (by rw [hb.taken]) (hb.origins ▸ id) ?_
      rw [hb.closed]
      exact id
  · rw [hb.origins] at hl
    by_cases heq : l = d.last n
    · exact heq ▸ hrest
    · refine (h.rest l hl).agrees (hb.agrees heq) (by rw [hb.taken]) fun hplace hbusy => ?_
      obtain ⟨b, hb', hreceiving⟩ := hbusy
      have hne : n ≠ l.connection := by
        rintro rfl
        exact heq (by rw [last, ← hplace]; rfl)
      exact ⟨b, by rw [hconnections, List.getElem?_set_ne hne]; exact hb', hreceiving⟩
  · rcases howned w hw with ⟨hold, hne⟩ | ⟨heq, hwaiting⟩
    · cases h.owned w hold with
      | job i i' origin at_ waits => exact .job i i' (hb.origins ▸ origin) (hjobs ▸ at_) waits
      | loop b at_ waits last =>
        have hnm : n ≠ w.letter.connection := by
          rintro rfl
          exact hne last
        exact .loop b (by rw [hconnections, List.getElem?_set_ne hnm]; exact at_) waits (last.trans (hlast _).symm)
    · have hn : w.letter.connection = n := by rw [heq]; rfl
      refine .loop c' ?_ hwaiting ?_
      · rw [hn, hconnections, List.getElem?_set_self hlt]
      · rw [hn, hlast, heq]

/-! ## Messages handed to a queue -/

theorem beside_handed {delivery : Delivery}
    (hsetting : s.config = d.server.config ∧ s.registry = d.server.registry)
    (hclosed : ∀ n, s.book.closed n = d.server.book.closed n) :
    d.Beside { d.handed l m delivery with server := s } l := by
  refine ⟨hsetting, ?_, ?_, ?_, ?_, hclosed, fun other hne => ?_, fun w hw _ => ?_⟩
  · cases delivery <;> rfl
  · cases delivery <;> rfl
  · cases delivery <;> rfl
  · cases delivery <;> rfl
  · cases delivery with
    | queued => exact (heard_append (d := d) rfl other).trans (if_neg hne.symm)
    | closed => rfl
    | waits => rfl
  · cases delivery with
    | queued => exact hw
    | closed => exact hw
    | waits => exact List.mem_append_left _ hw

/-- Whoever waits for a letter that a job was started for is that job. -/
theorem Answered.ticket_of_job (h : d.Answered config registry) (hl : d.origins[k]? = some l)
    (hj : d.server.jobs[k]? = some j) {w : Waiter} (hw : w ∈ d.waiters) (heq : w.letter = l) :
    j.ticket? = some w.ticket := by
  subst heq
  cases h.owned w hw with
  | job i i' origin at_ waits =>
    have hik : k = i := (List.getElem?_inj (List.getElem?_eq_some_iff.mp hl).1 h.distinct).mp (hl.trans origin.symm)
    subst hik
    rw [hj] at at_
    cases at_
    exact waits
  | loop c at_ waits last =>
    have hloop := h.loop _ c at_
    rw [waits] at hloop
    obtain ⟨m, hd, -⟩ := hloop
    exact absurd (last ▸ List.mem_of_getElem? hl) hd.jobless

/-- Nobody waits for a letter whose job does not wait. -/
theorem Answered.no_waiter_of_job (h : d.Answered config registry) (hl : d.origins[k]? = some l)
    (hj : d.server.jobs[k]? = some j) (hticket : j.ticket? = none) {w : Waiter} (hw : w ∈ d.waiters) :
    w.letter ≠ l := by
  intro heq
  have hwaits := h.ticket_of_job hl hj hw heq
  rw [hticket] at hwaits
  cases hwaits

/-- Nobody waits for the letter that a receive loop took last while it does not wait itself. -/
theorem Answered.no_waiter_of_loop (h : d.Answered config registry) {c : Connection}
    (hc : d.server.connections[n]? = some c) (hjobless : d.last n ∉ d.origins)
    (hreceiving : ∀ ticket, c.receiving ≠ .waiting ticket) {w : Waiter} (hw : w ∈ d.waiters) :
    w.letter ≠ d.last n := by
  intro heq
  cases h.owned w hw with
  | job i i' origin at_ waits => exact hjobless (heq ▸ List.mem_of_getElem? origin)
  | loop b at_ waits last =>
    rw [heq] at at_
    rw [show (d.last n).connection = n from rfl, hc] at at_
    cases at_
    exact hreceiving _ waits

/-- A job learns what became of its message. -/
theorem JobStands.answered (h : d.JobStands config registry l j) (hb : d.Beside d' l)
    (hm : j.phase.message? = some m) {delivered : Bool}
    (hheard : d'.heard l = if delivered then d.heard l ++ [m] else d.heard l)
    (hclosed : delivered = false → d.server.book.closed l.connection = true) :
    d'.JobStands config registry l (j.answered delivered) where
  channel := h.channel
  taken := hb.taken ▸ h.taken
  unhindered := hb.unhindered ▸ h.unhindered
  speech := by
    obtain ⟨text, r, hletter, hparse, hspeech⟩ := h.speech
    refine ⟨text, r, by rw [letter?, hb.arrived]; exact hletter, hparse, ?_⟩
    rw [hb.closed, hheard]
    cases delivered with
    | true => exact hspeech.delivered hm
    | false =>
      rw [hclosed rfl] at hspeech ⊢
      exact hspeech.undelivered hm
  waits _ ht := nomatch ht

/-- A job starts to wait with its message. -/
theorem JobStands.waiting (h : d.JobStands config registry l j) (hb : d.Beside d' l)
    (hm : j.phase.message? = some m) {ticket : Nat} (hheard : d'.heard l = d.heard l)
    (hw : ⟨ticket, l, m⟩ ∈ d'.waiters) : d'.JobStands config registry l { j with ticket? := some ticket } where
  channel := h.channel
  taken := hb.taken ▸ h.taken
  unhindered := hb.unhindered ▸ h.unhindered
  speech := by
    obtain ⟨text, r, hletter, hparse, hspeech⟩ := h.speech
    refine ⟨text, r, by rw [letter?, hb.arrived]; exact hletter, hparse, ?_⟩
    rw [hb.closed, hheard]
    exact hspeech
  waits t ht := by
    cases ht
    exact ⟨m, hm, hw⟩

theorem wired_handed (h : d.Wired) {delivery : Delivery}
    (hchannels : s.book.channels.length = d.server.book.channels.length)
    (hconnections : s.connections.length = d.server.connections.length)
    (hconnection : ∀ (n : Nat) (c' : Connection), s.connections[n]? = some c' → ∃ c : Connection,
      d.server.connections[n]? = some c ∧ c'.channel = c.channel ∧ c'.inbound = c.inbound)
    (hjobs : s.jobs.length = d.server.jobs.length) :
    ({ d.handed l m delivery with server := s } : Docket).Wired := by
  cases delivery <;> exact h.congr rfl rfl (fun _ _ => rfl) rfl hchannels hconnections hconnection hjobs

/-- The job for a letter hands its message to the queue. -/
theorem Answered.job_handed (h : d.Answered config registry) (hl : d.origins[k]? = some l)
    (hj : d.server.jobs[k]? = some j) (hticket : j.ticket? = none) (hm : j.phase.message? = some m)
    {delivery : Delivery} (hsetting : s.config = d.server.config ∧ s.registry = d.server.registry)
    (hclosed : ∀ n, s.book.closed n = d.server.book.closed n) (hconnections : s.connections = d.server.connections)
    (hgone : delivery = .closed → d.server.book.closed l.connection = true)
    (hjobs : s.jobs = d.server.jobs.set k (j.handed d.server.nextTicket delivery)) :
    ({ d.handed l m delivery with server := s } : Docket).Answered config registry := by
  have hb : d.Beside { d.handed l m delivery with server := s } l := beside_handed hsetting hclosed
  have hstands := h.job k j l hj hl
  have hold : ∀ w ∈ d.waiters, w ∈ d.waiters ∧ w.letter ≠ l := fun w hw => ⟨hw, h.no_waiter_of_job hl hj hticket hw⟩
  cases delivery with
  | queued =>
    refine h.job_spoke hb hl hj hjobs hconnections (hstands.answered hb hm ?_ nofun) fun w hw => .inl (hold w hw)
    exact (heard_append (d := d) rfl l).trans (if_pos rfl)
  | closed =>
    exact h.job_spoke hb hl hj hjobs hconnections (hstands.answered hb hm rfl fun _ => hgone rfl) fun w hw =>
      .inl (hold w hw)
  | waits =>
    refine h.job_spoke hb hl hj hjobs hconnections
      (hstands.waiting hb hm rfl (List.mem_append_right _ (List.mem_singleton.mpr rfl))) fun w hw => ?_
    rcases List.mem_append.mp hw with hw | hw
    · exact .inl (hold w hw)
    · rw [List.mem_singleton.mp hw]
      exact .inr ⟨rfl, rfl⟩

theorem Sound.sent (h : d.Sound config registry) (hs : d.server.step? (.sent k) = some s) :
    ({ d.note s (.sent k) with server := s } : Docket).Sound config registry := by
  obtain ⟨j, m, hj, hticket, hm, hcases⟩ := ChannelServer.step?_sent hs
  obtain ⟨l, hl⟩ := h.wired.exists_origin hj
  have hmessage : j.message? = some m := by simp [ChannelJob.message?, hticket, hm]
  rcases hcases with ⟨hlast, hreleased, rfl⟩ | ⟨hlast, rfl⟩
  · -- The slot is given back; nothing is said yet.
    have hnote : ∀ s, d.note s (.sent k) = d := by simp [note, hj, hl, hmessage, hlast, hreleased]
    rw [hnote]
    have hcalm := d.server.book.calm_endJob j.conn j.id
    exact h.quiet (ChannelServer.quiet_job hj hcalm (Nat.le_succ _) ⟨rfl, rfl, rfl, fun _ => rfl⟩)
  · have hchannel := (h.answered.job k j l hj hl).channel
    have hnote : ∀ s, d.note s (.sent k) = d.handed l m
        (d.server.book.send l.connection d.server.nextTicket m.text).1 := by
      intro s
      cases hend : m.isLast <;> simp_all [note]
    rw [hnote, hchannel]
    refine ⟨?_, h.mirrored.handed rfl rfl, ?_⟩
    · exact wired_handed h.wired (ChannelBook.length_send ..) rfl (fun n c hc => ⟨c, hc, rfl, rfl⟩) List.length_set
    · exact h.answered.job_handed hl hj hticket hm ⟨rfl, rfl⟩ (ChannelBook.closed_send _ _ _ _) rfl
        (ChannelBook.send_closed_iff ..).mp rfl

theorem Declining.beside (h : d.Declining l m) (hb : d.Beside d' l) (hheard : d'.heard l = d.heard l) :
    d'.Declining l m where
  last := hb.taken ▸ h.last
  silent := hheard.trans h.silent
  jobless := hb.origins ▸ h.jobless
  declines := by
    rw [letter?, hb.arrived]
    exact h.declines

/-- The refusal of a letter got through or was lost. -/
theorem Declining.rests (h : d.Declining l m) (hb : d.Beside d' l) (delivered : Bool)
    (hheard : d'.heard l = if delivered then d.heard l ++ [m] else d.heard l)
    (hclosed : delivered = false → d.server.book.closed l.connection = true) : d'.Rests l := by
  have htaken : l.place < d'.taken l.connection := by
    rw [hb.taken, ← h.last]
    exact Nat.lt_succ_self _
  obtain ⟨text, hletter, hdeclines⟩ := h.declines
  rw [h.silent] at hheard
  cases delivered with
  | true => exact .declined htaken text m (by rw [letter?, hb.arrived]; exact hletter) hdeclines hheard
  | false => exact .unheard htaken hheard (by rw [hb.closed]; exact hclosed rfl)

/-- The receive loop of a connection hands its refusal to the queue. -/
theorem Answered.loop_handed (h : d.Answered config registry) {c : Connection}
    (hc : d.server.connections[n]? = some c) (hreceiving : c.receiving = .refusing m) {delivery : Delivery}
    (hsetting : s.config = d.server.config ∧ s.registry = d.server.registry)
    (hclosed : ∀ n, s.book.closed n = d.server.book.closed n)
    (hconnections : s.connections = d.server.connections.set n (c.handed d.server.nextTicket delivery))
    (hgone : delivery = .closed → d.server.book.closed n = true) (hjobs : s.jobs = d.server.jobs) :
    ({ d.handed (d.last n) m delivery with server := s } : Docket).Answered config registry := by
  have hb : d.Beside { d.handed (d.last n) m delivery with server := s } (d.last n) := beside_handed hsetting hclosed
  have hloop := h.loop n c hc
  rw [hreceiving] at hloop
  have hd : d.Declining (d.last n) m := hloop
  have hold : ∀ w ∈ d.waiters, w ∈ d.waiters ∧ w.letter ≠ d.last n := fun w hw =>
    ⟨hw, h.no_waiter_of_loop hc hd.jobless (by simp [hreceiving]) hw⟩
  cases delivery with
  | queued =>
    refine h.loop_spoke hb hc hd.jobless hconnections hjobs trivial (hd.rests hb true ?_ nofun) fun w hw =>
      .inl (hold w hw)
    exact (heard_append (d := d) rfl _).trans (if_pos rfl)
  | closed =>
    exact h.loop_spoke hb hc hd.jobless hconnections hjobs trivial (hd.rests hb false rfl fun _ => hgone rfl)
      fun w hw => .inl (hold w hw)
  | waits =>
    have hlt : n < d.server.connections.length := (List.getElem?_eq_some_iff.mp hc).1
    refine h.loop_spoke hb hc hd.jobless hconnections hjobs ?_ ?_ fun w hw => ?_
    · exact ⟨m, hd.beside hb rfl, List.mem_append_right _ (List.mem_singleton.mpr rfl)⟩
    · refine .declining hd.last ⟨c.handed d.server.nextTicket .waits, ?_, nofun, nofun⟩
      exact (congrArg (·[n]?) hconnections).trans (List.getElem?_set_self hlt)
    · rcases List.mem_append.mp hw with hw | hw
      · exact .inl (hold w hw)
      · rw [List.mem_singleton.mp hw]
        exact .inr ⟨rfl, rfl⟩

theorem Sound.refused (h : d.Sound config registry) (hs : d.server.step? (.refused n) = some s) :
    ({ d.note s (.refused n) with server := s } : Docket).Sound config registry := by
  obtain ⟨c, m, hc, hreceiving, rfl⟩ := ChannelServer.step?_refused hs
  have hchannel := h.wired.channel n c hc
  have hnote : ∀ s, d.note s (.refused n) = d.handed (d.last n) m
      (d.server.book.send n d.server.nextTicket m.text).1 := by
    intro s
    simp only [note, hc, hreceiving, hchannel]
  rw [hnote, hchannel]
  refine ⟨?_, h.mirrored.handed rfl rfl, ?_⟩
  · refine wired_handed h.wired (ChannelBook.length_send ..) List.length_set (fun i b hi => ?_) rfl
    rcases getElem?_set_eq_some hi with ⟨rfl, rfl⟩ | ⟨-, hi⟩
    · refine ⟨c, hc, ?_⟩
      cases (d.server.book.send n d.server.nextTicket m.text).1 <;> exact ⟨rfl, rfl⟩
    · exact ⟨b, hi, rfl, rfl⟩
  · exact h.answered.loop_handed hc hreceiving ⟨rfl, rfl⟩ (ChannelBook.closed_send _ _ _ _) rfl
      (ChannelBook.send_closed_iff ..).mp rfl

/-! ## Messages that waited -/

/-- Those who wait for another letter keep waiting. -/
theorem beside_answered (h : d.Mirrored) {w : Waiter} (hw : w ∈ d.waiters) {delivered : Bool}
    (hsetting : s.config = d.server.config ∧ s.registry = d.server.registry)
    (hclosed : ∀ n, s.book.closed n = d.server.book.closed n) :
    d.Beside { d.answered w.ticket delivered with server := s } w.letter := by
  refine ⟨hsetting, rfl, rfl, rfl, rfl, hclosed, fun other hne => ?_, fun v hv hne => ?_⟩
  · cases delivered with
    | true =>
      refine (heard_append (d := d) (l := w.letter) (m := w.message) ?_ other).trans (if_neg hne.symm)
      simp [Docket.answered, filter_ticket h.tickets hw]
    | false => exact heard_of_said (d := d) (by simp [Docket.answered]) other
  · refine List.mem_filter.mpr ⟨hv, ?_⟩
    have hticket : v.ticket ≠ w.ticket := fun heq => hne (h.eq_of_ticket hv hw heq ▸ rfl)
    simpa using hticket

theorem heard_answered (h : d.Mirrored) {w : Waiter} (hw : w ∈ d.waiters) (delivered : Bool) :
    ({ d.answered w.ticket delivered with server := s } : Docket).heard w.letter =
      if delivered then d.heard w.letter ++ [w.message] else d.heard w.letter := by
  cases delivered with
  | true => exact (heard_append (d := d) (by simp [Docket.answered, filter_ticket h.tickets hw]) _).trans (if_pos rfl)
  | false => exact heard_of_said (d := d) (by simp [Docket.answered]) _

/-- A change of one element, seen as a change of all. -/
theorem map_eq_set {α : Type} {f : α → α} {xs : List α} {a : α} (ha : xs[k]? = some a)
    (hf : ∀ i x, xs[i]? = some x → k ≠ i → f x = x) : xs.map f = xs.set k (f a) := by
  refine List.ext_getElem? fun i => ?_
  by_cases hik : k = i
  · subst hik
    rw [List.getElem?_map, ha, List.getElem?_set_self (List.getElem?_eq_some_iff.mp ha).1]
    rfl
  · rw [List.getElem?_map, List.getElem?_set_ne hik]
    cases hx : xs[i]? with
    | none => rfl
    | some x => exact congrArg some (hf i x hx hik)

/-- Only the job for a letter waits with the message that answers it. -/
theorem Sound.letter_of_job (h : d.Sound config registry) {w : Waiter} (hw : w ∈ d.waiters)
    (hj : d.server.jobs[k]? = some j) (hticket : j.ticket? = some w.ticket) :
    d.origins[k]? = some w.letter ∧ j.phase.message? = some w.message := by
  obtain ⟨l, hl⟩ := h.wired.exists_origin hj
  obtain ⟨m, hm, hmem⟩ := (h.answered.job k j _ hj hl).waits _ hticket
  rw [← h.mirrored.eq_of_ticket hmem hw rfl]
  exact ⟨hl, hm⟩

/-- Only the receive loop that declined a letter waits with the message that answers it. -/
theorem Sound.letter_of_loop (h : d.Sound config registry) {w : Waiter} (hw : w ∈ d.waiters) {c : Connection}
    (hc : d.server.connections[n]? = some c) (hwaiting : c.receiving = .waiting w.ticket) :
    w.letter = d.last n ∧ d.Declining w.letter w.message := by
  have hloop := h.answered.loop n c hc
  rw [hwaiting] at hloop
  obtain ⟨m, hd, hmem⟩ := hloop
  rw [← h.mirrored.eq_of_ticket hmem hw rfl]
  exact ⟨rfl, hd⟩

/-- No two messages wait for one letter. -/
theorem Sound.eq_of_letter (h : d.Sound config registry) {v w : Waiter} (hv : v ∈ d.waiters) (hw : w ∈ d.waiters)
    (heq : v.letter = w.letter) : v = w := by
  refine h.mirrored.eq_of_ticket hv hw ?_
  cases h.answered.owned v hv with
  | job i i' origin at_ waits =>
    cases h.answered.owned w hw with
    | job k j origin' at' waits' =>
      obtain rfl : i = k := (List.getElem?_inj (List.getElem?_eq_some_iff.mp origin).1 h.answered.distinct).mp
        (by rw [origin, origin', heq])
      rw [at_] at at'
      cases at'
      exact Option.some.inj (waits.symm.trans waits')
    | loop c at' waits' last =>
      exact absurd (heq ▸ List.mem_of_getElem? origin) (h.letter_of_loop hw at' waits').2.jobless
  | loop b at_ waits last =>
    have hd := (h.letter_of_loop hv at_ waits).2
    cases h.answered.owned w hw with
    | job k j origin' at' waits' => exact absurd (heq ▸ List.mem_of_getElem? origin') hd.jobless
    | loop c at' waits' last' =>
      rw [heq, at'] at at_
      cases at_
      exact Receiving.waiting.inj (waits.symm.trans waits')

/-- The job that waited learns what came of its message, and nobody else does. -/
theorem Sound.answer_job (h : d.Sound config registry) {w : Waiter} (hw : w ∈ d.waiters)
    (horigin : d.origins[k]? = some w.letter) (hj : d.server.jobs[k]? = some j) (hticket : j.ticket? = some w.ticket)
    (delivered : Bool) :
    (d.server.answer w.ticket delivered).jobs = d.server.jobs.set k (j.answered delivered) ∧
      (d.server.answer w.ticket delivered).connections = d.server.connections := by
  constructor
  · refine (map_eq_set hj fun i x hx hne => if_neg fun hwaits => hne ?_).trans (by rw [if_pos hticket])
    exact (List.getElem?_inj (List.getElem?_eq_some_iff.mp horigin).1 h.answered.distinct).mp
      (horigin.trans (h.letter_of_job hw hx hwaits).1.symm)
  · refine (List.map_congr_left fun c hc => ?_).trans (List.map_id _)
    obtain ⟨n, hn⟩ := List.mem_iff_getElem?.mp hc
    split
    · rename_i t hreceiving
      refine if_neg fun ht => ?_
      exact (h.letter_of_loop hw hn (ht ▸ hreceiving)).2.jobless (List.mem_of_getElem? horigin)
    · rfl

/-- The receive loop that waited learns what came of its refusal, and nobody else does. -/
theorem Sound.answer_loop (h : d.Sound config registry) {w : Waiter} (hw : w ∈ d.waiters) {c : Connection}
    (hc : d.server.connections[w.letter.connection]? = some c) (hwaiting : c.receiving = .waiting w.ticket)
    (delivered : Bool) :
    (d.server.answer w.ticket delivered).jobs = d.server.jobs ∧
      (d.server.answer w.ticket delivered).connections = d.server.connections.set w.letter.connection c.refused := by
  constructor
  · refine (List.map_congr_left fun i hi => if_neg fun hticket => ?_).trans (List.map_id _)
    obtain ⟨k, hk⟩ := List.mem_iff_getElem?.mp hi
    have horigin := (h.letter_of_job hw hk hticket).1
    exact (h.letter_of_loop hw hc hwaiting).2.jobless (List.mem_of_getElem? horigin)
  · refine (map_eq_set hc fun i b hi hne => ?_).trans (by simp only [hwaiting, ↓reduceIte])
    split
    · rename_i t hreceiving
      refine if_neg fun ht => hne ?_
      exact congrArg Letter.connection (h.letter_of_loop hw hi (ht ▸ hreceiving)).1
    · rfl

theorem Sound.resumed (h : d.Sound config registry) (hs : d.server.step? (.resumed n) = some s) :
    ({ d.note s (.resumed n) with server := s } : Docket).Sound config registry := by
  obtain ⟨o, ticket, delivered, o', ho, hresume, rfl⟩ := ChannelServer.step?_resumed hs
  have hnote : ∀ s, d.note s (.resumed n) = d.answered ticket delivered := by
    intro s
    simp [note, ChannelBook.resume?, ChannelBook.channel?, ho, hresume]
  rw [hnote]
  obtain ⟨text, rest, hwaiting, hcases⟩ := Outbound.resume?_eq_some.mp hresume
  obtain ⟨w, hw, rfl, rfl, rfl, -⟩ := h.mirrored.exists_waiter ho hwaiting
  have hsame : o'.closed = o.closed := by
    rcases hcases with ⟨-, -, rfl⟩ | ⟨-, -, -, rfl⟩ <;> rfl
  have hgone : delivered = false → d.server.book.closed w.letter.connection = true := by
    rcases hcases with ⟨hclosed, -, -⟩ | ⟨-, -, rfl, -⟩
    · exact fun _ => by simp [ChannelBook.closed, ChannelBook.channel?, ho, hclosed]
    · rintro ⟨⟩
  refine ⟨?_, h.mirrored.resumed ho hresume rfl rfl, ?_⟩
  · refine h.wired.congr rfl rfl (fun _ _ => rfl) rfl (List.length_modify ..) (List.length_map ..) (fun i c' hi => ?_)
      (List.length_map ..)
    obtain ⟨c, hc, rfl⟩ := Option.map_eq_some_iff.mp ((List.getElem?_map ..).symm.trans hi)
    refine ⟨c, hc, ?_⟩
    split
    · split <;> exact ⟨rfl, rfl⟩
    · exact ⟨rfl, rfl⟩
  · have hb : d.Beside { d.answered w.ticket delivered with
        server := ({ d.server with book := d.server.book.modify w.letter.connection fun _ => o' } :
          ChannelServer).answer w.ticket delivered } w.letter :=
      beside_answered h.mirrored hw ⟨rfl, rfl⟩ (ChannelBook.closed_set ho hsame)
    have howned : ∀ v ∈ d.waiters.filter (·.ticket ≠ w.ticket), v ∈ d.waiters ∧ v.letter ≠ w.letter := by
      intro v hv
      obtain ⟨hv, hne⟩ := List.mem_filter.mp hv
      exact ⟨hv, fun heq => absurd (congrArg Waiter.ticket (h.eq_of_letter hv hw heq)) (by simpa using hne)⟩
    cases h.answered.owned w hw with
    | job k j origin at_ waits =>
      obtain ⟨hjobs, hconnections⟩ := h.answer_job hw origin at_ waits delivered
      have hm := (h.letter_of_job hw at_ waits).2
      have hstands := (h.answered.job k j _ at_ origin).answered hb hm (heard_answered h.mirrored hw delivered) hgone
      exact h.answered.job_spoke hb origin at_ hjobs hconnections hstands fun v hv => .inl (howned v hv)
    | loop c at_ waits last =>
      obtain ⟨hjobs, hconnections⟩ := h.answer_loop hw at_ waits delivered
      have hd := (h.letter_of_loop hw at_ waits).2
      have hrest := hd.rests hb delivered (heard_answered h.mirrored hw delivered) hgone
      rw [last] at hd hb hrest howned
      exact h.answered.loop_spoke hb at_ hd.jobless hconnections hjobs trivial hrest fun v hv => .inl (howned v hv)

end Docket
end FrameStream
