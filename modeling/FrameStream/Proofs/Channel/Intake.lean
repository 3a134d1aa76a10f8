import FrameStream.Proofs.Channel.Answers

/-!
# What comes in

A new connection finds an empty queue and nothing said. A letter that arrives changes nothing for those before it. A
letter that is taken is the next one of its connection: nothing was said about it yet, and the loop was listening, so
whatever the loop makes of it is the first thing that happens to it. With that every step is told, and a server is
sound after any run.
-/

namespace FrameStream
namespace Docket

variable {d d' : Docket} {s : ChannelServer} {l : Letter} {j : ChannelJob} {m : Message} {n k : Nat}
  {config : ServiceConfig} {registry : Registry} {e : ServerEvent}

theorem sound_start (config : ServiceConfig) (registry : Registry) (depth : Nat) :
    (start config registry depth).Sound config registry where
  wired := wired_start config registry depth
  mirrored := mirrored_start config registry depth
  answered :=
    { setting := ⟨rfl, rfl⟩
      distinct := List.nodup_nil
      job := fun _ _ _ h => nomatch h
      loop := fun _ _ h => nomatch h
      rest := fun _ _ => .coming (Nat.zero_le _) rfl
      owned := fun _ h => nomatch h }

/-! ## Only letters that were taken are answered -/

theorem Answered.exists_job (h : d.Answered config registry) (hwired : d.Wired) (hl : d.origins[k]? = some l) :
    ∃ j, d.server.jobs[k]? = some j ∧ d.JobStands config registry l j := by
  have hlt : k < d.server.jobs.length := hwired.origins ▸ (List.getElem?_eq_some_iff.mp hl).1
  have hj := List.getElem?_eq_getElem hlt
  exact ⟨_, hj, h.job k _ l hj hl⟩

theorem Answered.taken_of_mem (h : d.Answered config registry) (hwired : d.Wired) (hl : l ∈ d.origins) :
    l.place < d.taken l.connection := by
  obtain ⟨k, hk⟩ := List.mem_iff_getElem?.mp hl
  obtain ⟨j, -, hstands⟩ := h.exists_job hwired hk
  exact hstands.taken

/-- Nothing is said about a letter before it is taken. -/
theorem Answered.silent_of_taken_le (h : d.Answered config registry) (hwired : d.Wired)
    (hl : d.taken l.connection ≤ l.place) : l ∉ d.origins ∧ d.heard l = [] := by
  have hjobless : l ∉ d.origins := fun hmem => Nat.not_lt.mpr hl (h.taken_of_mem hwired hmem)
  refine ⟨hjobless, ?_⟩
  cases h.rest l hjobless with
  | coming later silent => exact silent
  | declining last busy => exact absurd hl (by omega)
  | skipped taken silent other => exact silent
  | declined taken text m request declines said => exact absurd taken (Nat.not_lt.mpr hl)
  | unheard taken silent gone => exact silent

theorem Wired.connected (h : d.Wired) (hl : l.place < d.taken l.connection) :
    l.connection < d.server.connections.length := by
  refine Nat.lt_of_not_le fun hbeyond => ?_
  have hle := h.taken_le l.connection
  rw [(h.beyond l.connection hbeyond).1] at hle
  exact absurd hl (Nat.not_lt.mpr (Nat.le_trans hle (Nat.zero_le _)))

/-- Nothing is said on a connection that is yet to come. -/
theorem Sound.saidOn_of_beyond (h : d.Sound config registry) (hn : d.server.connections.length ≤ n) :
    d.saidOn n = [] := by
  unfold saidOn
  refine List.map_eq_nil_iff.mpr (List.filter_eq_nil_iff.mpr fun said hsaid hconnection => ?_)
  have hn' : said.1.connection = n := by simpa using hconnection
  have hheard : said.2 ∈ d.heard said.1 := List.mem_map.mpr ⟨said, List.mem_filter.mpr ⟨hsaid, by simp⟩, rfl⟩
  refine Nat.not_le.mpr (h.wired.connected (Nat.lt_of_not_le fun hle => ?_)) (hn' ▸ hn)
  rw [(h.answered.silent_of_taken_le h.wired hle).2] at hheard
  cases hheard

theorem Sound.not_waiting_of_beyond (h : d.Sound config registry) (hn : d.server.connections.length ≤ n) {w : Waiter}
    (hw : w ∈ d.waiters) : w.letter.connection ≠ n := by
  rintro rfl
  refine Nat.not_le.mpr ?_ hn
  cases h.answered.owned w hw with
  | job k j origin at_ waits =>
    exact h.wired.connected (h.answered.taken_of_mem h.wired (List.mem_of_getElem? origin))
  | loop c at_ waits last => exact (List.getElem?_eq_some_iff.mp at_).1

/-! ## A job moves -/

/-- A job that is to say something says it before it moves on. -/
theorem JobMove.phase_of_message {move : JobMove} (hm : j.phase.message? = some m) : move.phase s j = j.phase := by
  cases hp : j.phase <;> cases move <;> simp_all [JobMove.phase, Phase.opened, Phase.looked, Phase.readDone,
    Phase.unitEnded, Phase.message?]

theorem Sound.moved (h : d.Sound config registry) {move : JobMove} (hs : d.server.step? (.moved k move) = some s) :
    ({ d.note s (.moved k move) with server := s } : Docket).Sound config registry := by
  obtain ⟨j, hj, rfl⟩ := ChannelServer.step?_moved hs
  obtain ⟨l, hl⟩ := h.wired.exists_origin hj
  have hstands := h.answered.job k j l hj hl
  have hb : d.Beside { d with server := { d.server with
      jobs := d.server.jobs.set k { j with phase := move.phase d.server j } } } l :=
    ⟨⟨rfl, rfl⟩, rfl, rfl, rfl, rfl, fun _ => rfl, fun _ _ => rfl, fun _ hw _ => hw⟩
  refine ⟨?_, h.mirrored.calm (.refl _) (Nat.le_refl _), ?_⟩
  · exact h.wired.congr rfl rfl (fun _ _ => rfl) rfl rfl rfl (fun _ c hc => ⟨c, hc, rfl, rfl⟩) List.length_set
  · refine h.answered.job_spoke hb hl hj rfl rfl ⟨hstands.channel, hstands.taken, hstands.unhindered, ?_, ?_⟩
      fun w hw => ?_
    · obtain ⟨text, r, hletter, hparse, hspeech⟩ := hstands.speech
      exact ⟨text, r, hletter, hparse, hspeech.moved move⟩
    · intro ticket hticket
      obtain ⟨m, hm, hw⟩ := hstands.waits ticket hticket
      exact ⟨m, (congrArg Phase.message? (JobMove.phase_of_message hm)).trans hm, hw⟩
    · by_cases heq : w.letter = l
      · exact .inr ⟨heq, h.answered.ticket_of_job hl hj hw heq⟩
      · exact .inl ⟨hw, heq⟩

/-! ## Frames and letters that do not concern anyone yet -/

/-- A change of one connection whose loop goes on as before. -/
theorem stays_of_set {c c' : Connection} (hc : d.server.connections[n]? = some c)
    (hconnections : d'.server.connections = d.server.connections.set n c') (hreceiving : c'.receiving = c.receiving)
    (hjobs : d'.server.jobs = d.server.jobs)
    (hsetting : d'.server.config = d.server.config ∧ d'.server.registry = d.server.registry)
    (hagrees : ∀ l, d.Agrees d' l) (htaken : d'.taken = d.taken) (horigins : d'.origins = d.origins)
    (hwaiters : d'.waiters = d.waiters)
    (hclosed : ∀ m, d.server.book.closed m = true → d'.server.book.closed m = true) : d.Stays d' where
  setting := hsetting
  agrees := hagrees
  taken := htaken
  origins := horigins
  waiters := hwaiters
  loop m b hb := by
    rw [hconnections] at hb
    rcases getElem?_set_eq_some hb with ⟨rfl, rfl⟩ | ⟨-, hb⟩
    · exact .inr (.inr ⟨c, hc, hreceiving, hclosed n⟩)
    · exact .inr (.inr ⟨b, hb, rfl, hclosed m⟩)
  connection m b hb := by
    rw [hconnections]
    by_cases hnm : n = m
    · subst hnm
      rw [hc] at hb
      cases hb
      exact ⟨c', List.getElem?_set_self (List.getElem?_eq_some_iff.mp hc).1, .inl hreceiving⟩
    · exact ⟨b, by rw [List.getElem?_set_ne hnm]; exact hb, .inl rfl⟩
  job k j hj := ⟨j, hjobs ▸ hj, .refl j⟩
  kept k j hj := ⟨j, hjobs ▸ hj, .refl j⟩

theorem Sound.forwarded (h : d.Sound config registry) (hs : d.server.step? (.forwarded n) = some s) :
    ({ d.note s (.forwarded n) with server := s } : Docket).Sound config registry := by
  obtain ⟨c, hc, -, hcases⟩ := ChannelServer.step?_forwarded hs
  have hchannel := h.wired.channel n c hc
  rcases hcases with ⟨f, o, o', ho, htake, rfl⟩ | ⟨hnone, rfl⟩
  · have hnote : ∀ s, d.note s (.forwarded n) =
        { d with forwarded := Function.update d.forwarded n (d.forwarded n ++ [f]) } := by
      intro s
      simp [note, hc, ChannelBook.take?, ChannelBook.channel?, ho, htake]
    rw [hnote]
    have hsame : o'.closed = o.closed := by
      obtain ⟨rest, -, rfl⟩ := Outbound.take?_eq_some.mp htake
      rfl
    have hclosed := ChannelBook.closed_set ho hsame
    refine ⟨?_, h.mirrored.forwarded (hchannel ▸ ho) htake (hchannel ▸ rfl) rfl, ?_⟩
    · refine h.wired.congr rfl rfl (fun m hm => ?_) rfl (List.length_modify ..) List.length_set (fun m b hb => ?_) rfl
      · have hne : m ≠ n := Nat.ne_of_gt (Nat.lt_of_lt_of_le (List.getElem?_eq_some_iff.mp hc).1 hm)
        exact Function.update_of_ne hne _ _
      · rcases getElem?_set_eq_some hb with ⟨rfl, rfl⟩ | ⟨-, hb⟩
        · exact ⟨c, hc, rfl, rfl⟩
        · exact ⟨b, hb, rfl, rfl⟩
    · refine h.answered.stays (stays_of_set hc rfl rfl rfl ⟨rfl, rfl⟩ (fun l => ?_) rfl rfl rfl fun m hm => ?_)
      · exact {
          taken := Nat.le_refl _
          letter := fun _ => rfl
          heard := rfl
          unhindered := id
          closed := fun _ hl => (hclosed _).trans hl
          waits := fun _ hw _ => hw }
      · exact (hclosed m).trans hm
  · have hnote : ∀ s, d.note s (.forwarded n) = d := by
      intro s
      simp [note, hc, hnone]
    rw [hnote]
    exact h.quiet (ChannelServer.quiet_connection hc (ChannelServer.calm_stop c d.server.book)
      ⟨rfl, rfl, .inl rfl⟩)

theorem Sound.arrived (h : d.Sound config registry) {i : Inbound} (hs : d.server.step? (.arrived n i) = some s) :
    ({ d.note s (.arrived n i) with server := s } : Docket).Sound config registry := by
  obtain ⟨c, hc, rfl⟩ := ChannelServer.step?_arrived hs
  have hlt := (List.getElem?_eq_some_iff.mp hc).1
  -- What arrived before keeps its place.
  have hold : ∀ (m p : Nat), p < (d.arrived m).length →
      (Function.update d.arrived n (d.arrived n ++ [i]) m)[p]? = (d.arrived m)[p]? := by
    intro m p hp
    by_cases hnm : m = n
    · subst hnm
      rw [Function.update_self, List.getElem?_append_left hp]
    · rw [Function.update_of_ne hnm]
  refine ⟨⟨h.wired.channels.trans List.length_set.symm, fun m b hb => ?_, fun m b hb => ?_, fun m => ?_,
    fun m hm => ?_, h.wired.origins⟩, ⟨h.mirrored.tickets, h.mirrored.early, h.mirrored.waiting, h.mirrored.said⟩, ?_⟩
  · rcases getElem?_set_eq_some hb with ⟨rfl, rfl⟩ | ⟨-, hb⟩
    · exact h.wired.channel n c hc
    · exact h.wired.channel m b hb
  · rcases getElem?_set_eq_some hb with ⟨rfl, rfl⟩ | ⟨hnm, hb⟩
    · simp only [note, Function.update_self]
      rw [List.drop_append_of_le_length (h.wired.taken_le n), ← h.wired.inbound n c hc]
      rfl
    · simp only [note, Function.update_of_ne (Ne.symm hnm)]
      exact h.wired.inbound m b hb
  · simp only [note]
    by_cases hnm : m = n
    · subst hnm
      rw [Function.update_self, List.length_append]
      exact Nat.le_trans (h.wired.taken_le m) (Nat.le_add_right _ _)
    · rw [Function.update_of_ne hnm]
      exact h.wired.taken_le m
  · have hm' : d.server.connections.length ≤ m := Nat.le_trans (Nat.le_of_eq List.length_set.symm) hm
    simp only [note, Function.update_of_ne (Nat.ne_of_gt (Nat.lt_of_lt_of_le hlt hm'))]
    exact h.wired.beyond m hm'
  · refine h.answered.stays (stays_of_set hc rfl rfl rfl ⟨rfl, rfl⟩ (fun l => ?_) rfl rfl rfl fun _ => id)
    exact {
      taken := Nat.le_refl _
      letter := fun hl => hold l.connection l.place (Nat.lt_of_lt_of_le hl (h.wired.taken_le _))
      heard := rfl
      unhindered := id
      closed := fun _ => id
      waits := fun _ hw _ => hw }

/-! ## New connections -/

/-- A channel that opens is open, and those before it stay closed if they were. -/
theorem closed_openChannel {b : ChannelBook} {conn : String} (hn : n < b.channels.length) (hc : b.closed n = true) :
    (b.openChannel conn).2.closed n = true := by
  obtain ⟨b', hcalm, -, hchannels⟩ := b.exists_openChannel conn
  have hc' := hcalm.closed n hc
  unfold ChannelBook.closed ChannelBook.channel? at hc' ⊢
  rw [hchannels, List.getElem?_append_left (hcalm.length ▸ hn)]
  exact hc'

theorem Mirrored.accepted (h : d.Sound config registry) (conn : String) :
    ({ d with server := d.server.accept conn } : Docket).Mirrored := by
  obtain ⟨b', hcalm, -, hchannels⟩ := d.server.book.exists_openChannel conn
  have hcalmed := h.mirrored.calm (s := { d.server with book := b' }) hcalm (Nat.le_refl _)
  refine ⟨h.mirrored.tickets, h.mirrored.early, fun n o ho => ?_, fun n o ho hr => ?_⟩
  · rw [ChannelServer.accept, hchannels] at ho
    rcases getElem?_concat_eq_some ho with hold | ⟨rfl, rfl⟩
    · exact hcalmed.waiting n o hold
    · have hbeyond : d.server.connections.length ≤ b'.channels.length :=
        Nat.le_of_eq (hcalm.length.trans h.wired.channels).symm
      refine (List.map_eq_nil_iff.mpr (List.filter_eq_nil_iff.mpr fun w hw hconnection => ?_)).symm
      exact h.not_waiting_of_beyond hbeyond hw (by simpa using hconnection)
  · rw [ChannelServer.accept, hchannels] at ho
    rcases getElem?_concat_eq_some ho with hold | ⟨rfl, rfl⟩
    · exact hcalmed.said n o hold hr
    · have hbeyond : d.server.connections.length ≤ b'.channels.length :=
        Nat.le_of_eq (hcalm.length.trans h.wired.channels).symm
      have hsaid : ({ d with server := d.server.accept conn } : Docket).saidOn b'.channels.length = [] :=
        h.saidOn_of_beyond hbeyond
      rw [hsaid, (h.wired.beyond _ hbeyond).2]
      rfl

theorem Sound.accepted (h : d.Sound config registry) {conn : String}
    (hs : d.server.step? (.accepted conn) = some s) :
    ({ d.note s (.accepted conn) with server := s } : Docket).Sound config registry := by
  obtain rfl := ChannelServer.step?_accepted hs
  obtain ⟨b', hcalm, hnumber, hchannels⟩ := d.server.book.exists_openChannel conn
  have hold : ∀ m, m < d.server.connections.length → d.server.book.closed m = true →
      (d.server.accept conn).book.closed m = true :=
    fun m hm => closed_openChannel (h.wired.channels ▸ hm)
  refine ⟨⟨?_, fun n c hc => ?_, fun n c hc => ?_, h.wired.taken_le, fun n hn => ?_, h.wired.origins⟩,
    Mirrored.accepted h conn, ?_⟩
  · simp only [ChannelServer.accept, hchannels, List.length_append, List.length_singleton, hcalm.length,
      h.wired.channels]
  · rcases getElem?_concat_eq_some hc with hc | ⟨rfl, rfl⟩
    · exact h.wired.channel n c hc
    · exact hnumber.trans h.wired.channels
  · rcases getElem?_concat_eq_some hc with hc | ⟨rfl, rfl⟩
    · exact h.wired.inbound n c hc
    · simp [note, (h.wired.beyond _ (Nat.le_refl _)).1]
  · refine h.wired.beyond n (Nat.le_trans (Nat.le_succ _) ?_)
    simpa [ChannelServer.accept] using hn
  · refine h.answered.stays ⟨⟨rfl, rfl⟩, fun l => ?_, rfl, rfl, rfl, fun n c hc => ?_, fun n c hc => ?_,
      fun k j hj => ⟨j, hj, .refl j⟩, fun k j hj => ⟨j, hj, .refl j⟩⟩
    · exact {
        taken := Nat.le_refl _
        letter := fun _ => rfl
        heard := rfl
        unhindered := id
        closed := fun hl => hold l.connection (h.wired.connected hl)
        waits := fun _ hw _ => hw }
    · rcases getElem?_concat_eq_some hc with hc | ⟨-, rfl⟩
      · exact .inr (.inr ⟨c, hc, rfl, hold n (List.getElem?_eq_some_iff.mp hc).1⟩)
      · exact .inl rfl
    · exact ⟨c, (List.getElem?_append_left (List.getElem?_eq_some_iff.mp hc).1).trans hc, .inl rfl⟩

/-! ## The next letter -/

/-- The letter that the receive loop of a connection will take next. -/
def next (d : Docket) (n : Nat) : Letter := ⟨n, d.taken n⟩

/-- Nothing was said about it. -/
theorem Sound.silent_of_next (h : d.Sound config registry) (hl : l = d.next l.connection) : d.heard l = [] :=
  (h.answered.silent_of_taken_le h.wired (Nat.le_of_eq (congrArg Letter.place hl).symm)).2

/-- The receive loop of a connection takes the next letter, and a job may be started for it. -/
structure Takes (d d' : Docket) (n : Nat) (c' : Connection) (job : Option ChannelJob) : Prop where
  setting : d'.server.config = d.server.config ∧ d'.server.registry = d.server.registry
  taken : d'.taken = Function.update d.taken n (d.taken n + 1)
  agrees : ∀ l, d.Agrees d' l
  waiters : d'.waiters = d.waiters
  closed : ∀ m, d.server.book.closed m = true → d'.server.book.closed m = true
  connections : d'.server.connections = d.server.connections.set n c'
  jobs : d'.server.jobs = d.server.jobs ++ job.toList
  origins : d'.origins = d.origins ++ job.toList.map fun _ => d.next n

/-- A letter other than the next one rests where it rested. -/
theorem Rests.takes (h : d.Rests l) {c c' : Connection} {job : Option ChannelJob} (ht : d.Takes d' n c' job)
    (hc : d.server.connections[n]? = some c) (hlistens : c.receiving = .listening) (hne : l ≠ d.next n) :
    d'.Rests l := by
  by_cases hn : l.connection = n
  · subst hn
    have hsucc : d'.taken l.connection = d.taken l.connection + 1 := by rw [ht.taken, Function.update_self]
    have hagrees := ht.agrees l
    cases h with
    | coming later silent =>
      have hplace : l.place ≠ d.taken l.connection := fun heq => hne (by rw [next, ← heq])
      exact .coming (by omega) (hagrees.heard ▸ silent)
    | declining last busy =>
      obtain ⟨b, hb, hbusy, -⟩ := busy
      rw [hc] at hb
      cases hb
      exact absurd hlistens hbusy
    | skipped taken silent other =>
      exact .skipped (by omega) (hagrees.heard ▸ silent) fun text => hagrees.letter taken ▸ other text
    | declined taken text m request declines said =>
      exact .declined (by omega) text m ((hagrees.letter taken).trans request) declines (hagrees.heard ▸ said)
    | unheard taken silent gone => exact .unheard (by omega) (hagrees.heard ▸ silent) (hagrees.closed taken gone)
  · refine h.agrees (ht.agrees l) (by rw [ht.taken, Function.update_of_ne hn]) fun _ hbusy => ?_
    obtain ⟨b, hb, hreceiving⟩ := hbusy
    exact ⟨b, by rw [ht.connections, List.getElem?_set_ne (Ne.symm hn)]; exact hb, hreceiving⟩

/-- The letter that is taken was no origin of a job, so the origins stay distinct. -/
theorem Takes.distinct {c' : Connection} {job : Option ChannelJob} (ht : d.Takes d' n c' job) (h : d.origins.Nodup)
    (hnew : d.next n ∉ d.origins) : d'.origins.Nodup := by
  rw [ht.origins]
  cases job with
  | none => simpa using h
  | some j =>
    refine List.nodup_append.mpr ⟨h, List.nodup_singleton _, fun l hl t ht heq => hnew ?_⟩
    obtain rfl : t = d.next n := List.mem_singleton.mp ht
    exact heq ▸ hl

/-- A job after a letter was taken was there before, or is the one that was started for it. -/
theorem Takes.job_cases {c' : Connection} {job : Option ChannelJob} (ht : d.Takes d' n c' job) (hwired : d.Wired)
    {j : ChannelJob} (hj : d'.server.jobs[k]? = some j) (hl : d'.origins[k]? = some l) :
    (d.server.jobs[k]? = some j ∧ d.origins[k]? = some l) ∨ (job = some j ∧ l = d.next n) := by
  rw [ht.jobs] at hj
  rw [ht.origins] at hl
  rcases Nat.lt_or_ge k d.server.jobs.length with hk | hk
  · rw [List.getElem?_append_left hk] at hj
    rw [List.getElem?_append_left (hwired.origins ▸ hk)] at hl
    exact .inl ⟨hj, hl⟩
  · rw [List.getElem?_append_right hk] at hj
    rw [List.getElem?_append_right (hwired.origins ▸ hk)] at hl
    obtain ⟨-, -, rfl⟩ := List.mem_map.mp (List.mem_of_getElem? hl)
    exact .inr ⟨by simpa using List.mem_of_getElem? hj, rfl⟩

/-- The other receive loops stand where they stood. -/
theorem LoopStands.takes {m : Nat} {r : Receiving} (h : d.LoopStands m r) {c' : Connection} {job : Option ChannelJob}
    (ht : d.Takes d' n c' job) (hne : n ≠ m) : d'.LoopStands m r := by
  refine h.agrees (fun _ => ht.agrees _) (by rw [ht.taken, Function.update_of_ne (Ne.symm hne)])
    (fun hjobless hmem => ?_) (ht.closed m)
  rw [ht.origins] at hmem
  rcases List.mem_append.mp hmem with hmem | hmem
  · exact hjobless hmem
  · obtain ⟨-, -, heq⟩ := List.mem_map.mp hmem
    exact hne (congrArg Letter.connection heq)

/-- Whoever waits goes on waiting, for the loop that takes a letter does not wait. -/
theorem Owned.takes {w : Waiter} (h : d.Owned w) {c c' : Connection} {job : Option ChannelJob}
    (ht : d.Takes d' n c' job) (hc : d.server.connections[n]? = some c) (hlistens : c.receiving = .listening) :
    d'.Owned w := by
  cases h with
  | job k j origin at_ waits =>
    refine .job k j ?_ ?_ waits
    · rw [ht.origins, List.getElem?_append_left (List.getElem?_eq_some_iff.mp origin).1]
      exact origin
    · rw [ht.jobs, List.getElem?_append_left (List.getElem?_eq_some_iff.mp at_).1]
      exact at_
  | loop b at_ waits last =>
    have hne : w.letter.connection ≠ n := by
      rintro rfl
      rw [hc] at at_
      cases at_
      rw [hlistens] at waits
      cases waits
    have hlast : d'.last w.letter.connection = d.last w.letter.connection := by
      rw [Docket.last, Docket.last, ht.taken, Function.update_of_ne hne]
    refine .loop b ?_ waits (last.trans hlast.symm)
    rw [ht.connections, List.getElem?_set_ne (Ne.symm hne)]
    exact at_

theorem Answered.takes (h : d.Answered config registry) (hwired : d.Wired) {c c' : Connection}
    {job : Option ChannelJob} (ht : d.Takes d' n c' job) (hc : d.server.connections[n]? = some c)
    (hlistens : c.receiving = .listening) (hloop : d'.LoopStands n c'.receiving)
    (hjob : ∀ j, job = some j → d'.JobStands config registry (d.next n) j)
    (hrest : job = none → d'.Rests (d.next n)) : d'.Answered config registry := by
  refine ⟨?_, ?_, fun k j l hj hl => ?_, fun m b hb => ?_, fun l hl => ?_, fun w hw => ?_⟩
  · exact ⟨ht.setting.1.trans h.setting.1, ht.setting.2.trans h.setting.2⟩
  · exact ht.distinct h.distinct (h.silent_of_taken_le hwired (Nat.le_refl _)).1
  · rcases ht.job_cases hwired hj hl with ⟨hj, hl⟩ | ⟨hstarted, rfl⟩
    · exact (h.job k j l hj hl).agrees (ht.agrees l)
    · exact hjob j hstarted
  · rw [ht.connections] at hb
    rcases getElem?_set_eq_some hb with ⟨rfl, rfl⟩ | ⟨hne, hb⟩
    · exact hloop
    · exact (h.loop m b hb).takes ht hne
  · rw [ht.origins] at hl
    by_cases hne : l = d.next n
    · subst hne
      refine hrest (Option.eq_none_iff_forall_not_mem.mpr fun j hj => hl (List.mem_append_right _ ?_))
      exact List.mem_map.mpr ⟨j, Option.mem_toList.mpr hj, rfl⟩
    · exact (h.rest l fun hmem => hl (List.mem_append_left _ hmem)).takes ht hc hlistens hne
  · exact (h.owned w (ht.waiters ▸ hw)).takes ht hc hlistens

theorem Wired.next_letter (h : d.Wired) {c : Connection} {i : Inbound} {rest : List Inbound}
    (hc : d.server.connections[n]? = some c) (hinbound : c.inbound = i :: rest) :
    d.letter? (d.next n) = some i ∧ rest = (d.arrived n).drop (d.taken n + 1) := by
  have hdrop : (d.arrived n).drop (d.taken n) = i :: rest := (h.inbound n c hc).symm.trans hinbound
  refine ⟨?_, ?_⟩
  · have hhead := congrArg (·[0]?) hdrop
    simpa [letter?, next] using hhead
  · rw [← List.drop_drop, hdrop]
    rfl

theorem Wired.takes (h : d.Wired) {c c' : Connection} {i : Inbound} {job : Option ChannelJob}
    (ht : d.Takes d' n c' job) (hc : d.server.connections[n]? = some c) (hinbound : c.inbound = i :: c'.inbound)
    (hchannel : c'.channel = c.channel) (harrived : d'.arrived = d.arrived) (hforwarded : d'.forwarded = d.forwarded)
    (hchannels : d'.server.book.channels.length = d.server.book.channels.length) : d'.Wired := by
  obtain ⟨hletter, hrest⟩ := h.next_letter hc hinbound
  have hlength : d'.server.connections.length = d.server.connections.length := by rw [ht.connections, List.length_set]
  refine ⟨hchannels.trans (h.channels.trans hlength.symm), fun m a hm => ?_, fun m a hm => ?_, fun m => ?_,
    fun m hm => ?_, ?_⟩
  · rw [ht.connections] at hm
    rcases getElem?_set_eq_some hm with ⟨rfl, rfl⟩ | ⟨-, hm⟩
    · exact hchannel.trans (h.channel n c hc)
    · exact h.channel m a hm
  · rw [ht.connections] at hm
    rw [ht.taken, harrived]
    rcases getElem?_set_eq_some hm with ⟨rfl, rfl⟩ | ⟨hnm, hm⟩
    · rw [Function.update_self]
      exact hrest
    · rw [Function.update_of_ne (Ne.symm hnm)]
      exact h.inbound m a hm
  · rw [ht.taken, harrived]
    by_cases hm : m = n
    · subst hm
      rw [Function.update_self]
      exact (List.getElem?_eq_some_iff.mp hletter).1
    · rw [Function.update_of_ne hm]
      exact h.taken_le m
  · rw [harrived, hforwarded]
    exact h.beyond m (hlength ▸ hm)
  · rw [ht.origins, ht.jobs, List.length_append, List.length_append, List.length_map, h.origins]

/-- What is noted when a letter is taken. -/
theorem takes_note {c' : Connection} {b : ChannelBook} {job : Option ChannelJob}
    (hs : s = { d.server with
      connections := d.server.connections.set n c', book := b, jobs := d.server.jobs ++ job.toList })
    (hb : d.server.book.Calm b) : d.Takes { d.note s (.taken n) with server := s } n c' job := by
  have hlength : s.jobs.length - d.server.jobs.length = job.toList.length := by
    rw [hs, List.length_append, Nat.add_sub_cancel_left]
  have hclosed : ∀ m, d.server.book.closed m = true → s.book.closed m = true := by
    rw [hs]
    exact hb.closed
  refine ⟨hs ▸ ⟨rfl, rfl⟩, rfl, fun l => ⟨le_update d.taken n _, fun _ => rfl, rfl, fun hl => ?_, fun _ => hclosed _,
    fun _ hw _ => hw⟩, rfl, hclosed, hs ▸ rfl, hs ▸ rfl, ?_⟩
  · simp only [note]
    split
    · exact List.mem_append_left _ hl
    · exact hl
  · simp only [note, hlength, List.map_const', next]

theorem Takes.succ {c' : Connection} {job : Option ChannelJob} (ht : d.Takes d' n c' job) :
    (d.next n).place + 1 = d'.taken (d.next n).connection := by
  rw [ht.taken, next, Function.update_self]

theorem Takes.last {c' : Connection} {job : Option ChannelJob} (ht : d.Takes d' n c' job) :
    d'.last n = d.next n := by
  simp [Docket.last, next, ht.taken]

/-- Nothing is said yet about the letter that was taken. -/
theorem Sound.silent_of_takes (h : d.Sound config registry) {c' : Connection} {job : Option ChannelJob}
    (ht : d.Takes d' n c' job) : d'.heard (d.next n) = [] :=
  (ht.agrees _).heard.trans (h.silent_of_next rfl)

/-- A loop that declines what it takes is about to say so. -/
theorem Sound.declining (h : d.Sound config registry) {c' : Connection} (ht : d.Takes d' n c' none) {text : Bytes}
    (hletter : d'.letter? (d.next n) = some (.request text)) (declines : Declines text m) :
    d'.Declining (d.next n) m := by
  have hjobless : d.next n ∉ d'.origins := by
    simpa [ht.origins] using (h.answered.silent_of_taken_le h.wired (l := d.next n) (Nat.le_refl _)).1
  exact ⟨ht.succ, h.silent_of_takes ht, hjobless, text, hletter, declines⟩

/-- A job that is started for what the loop takes stands at the start of its request. -/
theorem Sound.starting (h : d.Sound config registry) {c c' : Connection} (hc : d.server.connections[n]? = some c)
    (ht : d.Takes d' n c' (some j)) {text : Bytes} {r : Request}
    (hletter : d'.letter? (d.next n) = some (.request text)) (parsed : Request.parse text = .ok r)
    (hchannel : j.channel = c.channel) (hphase : j.phase = Phase.start r d.server.config d.server.registry)
    (hticket : j.ticket? = none) (hunhindered : d.next n ∈ d'.unhindered) :
    d'.JobStands config registry (d.next n) j where
  channel := hchannel.trans (h.wired.channel n c hc)
  taken := Nat.lt_of_succ_le (Nat.le_of_eq ht.succ)
  unhindered := hunhindered
  speech := by
    refine ⟨text, r, hletter, parsed, ?_⟩
    rw [h.silent_of_takes ht, hphase, h.answered.setting.1, h.answered.setting.2]
    exact speech_start
  waits ticket hwaits := by
    rw [hticket] at hwaits
    cases hwaits

/-- What is neither a request nor taken by a job rests as it is. -/
theorem Sound.skipping (h : d.Sound config registry) {c' : Connection} {job : Option ChannelJob}
    (ht : d.Takes d' n c' job) {i : Inbound} (hletter : d'.letter? (d.next n) = some i)
    (other : ∀ text, i ≠ .request text) : d'.Rests (d.next n) := by
  refine .skipped (Nat.lt_of_succ_le (Nat.le_of_eq ht.succ)) (h.silent_of_takes ht) fun text heq => ?_
  rw [hletter] at heq
  cases heq
  exact other text rfl

theorem Sound.taken (h : d.Sound config registry) (hs : d.server.step? (.taken n) = some s) :
    ({ d.note s (.taken n) with server := s } : Docket).Sound config registry := by
  obtain ⟨c, i, c', b, job, hc, hlistens, htakes, hserver⟩ := ChannelServer.step?_taken hs
  obtain ⟨hinbound, hchannel, hcalm⟩ := htakes.next_inbound
  have ht := takes_note hserver hcalm
  have hbook : s.book = b := by rw [hserver]
  have hmirrored := h.mirrored.calm (s := s) (hbook ▸ hcalm) (Nat.le_of_eq (by rw [hserver]))
  refine ⟨h.wired.takes ht hc hinbound hchannel rfl rfl (by rw [hbook]; exact hcalm.length),
    ⟨hmirrored.tickets, hmirrored.early, hmirrored.waiting, hmirrored.said⟩, ?_⟩
  have hnext := (h.wired.next_letter hc hinbound).1
  generalize hd' : ({ d.note s (.taken n) with server := s } : Docket) = d' at ht
  have hanswered := h.answered.takes h.wired ht hc hlistens
  have hletter : d'.letter? (d.next n) = some i := by
    rw [← hnext, ← hd']
    rfl
  have hbook' : d'.server.book = b := by rw [← hd', ← hbook]
  cases htakes with
  | parted _ rest next parting =>
    refine hanswered ?_ (by rintro _ ⟨⟩) fun _ => h.skipping ht hletter fun text heq => ?_
    · have hleft := (ChannelServer.calm_leave { c with inbound := rest } d.server.book).2
      rw [← hbook', h.wired.channel n c hc] at hleft
      exact hleft
    · rw [heq] at parting
      cases parting
  | skipped _ rest next other =>
    refine hanswered ?_ (by rintro _ ⟨⟩) fun _ => h.skipping ht hletter other
    simp only [hlistens]
    trivial
  | declined text rest m next declines =>
    refine hanswered ?_ (by rintro _ ⟨⟩) fun _ => ?_
    · have hdeclining := h.declining ht hletter declines
      rw [← ht.last] at hdeclining
      exact hdeclining
    · refine .declining ht.succ
        ⟨{ c with inbound := rest, receiving := .refusing m }, ?_, by rintro ⟨⟩, by rintro ⟨⟩⟩
      rw [ht.connections]
      exact List.getElem?_set_self (List.getElem?_eq_some_iff.mp hc).1
  | started text rest r id b' next parsed begun =>
    refine hanswered ?_ (fun j hj => ?_) (by rintro ⟨⟩)
    · simp only [hlistens]
      trivial
    · cases hj
      refine h.starting hc ht hletter parsed rfl rfl rfl ?_
      obtain ⟨hopen, hempty⟩ := ChannelBook.exists_beginJob_iff.mp ⟨id, b', begun⟩
      have hfree : d.slotFree n = true := by simp [slotFree, hc, hopen, hempty]
      rw [← hd']
      simp [note, hfree, Docket.next]

/-! ## Every step, and every run -/

theorem Sound.step (h : d.Sound config registry) (hs : d.step? e = some d') : d'.Sound config registry := by
  obtain ⟨s, hstep, rfl⟩ := step?_eq_some hs
  cases e with
  | accepted conn => exact h.accepted hstep
  | arrived n i => exact h.arrived hstep
  | taken n => exact h.taken hstep
  | refused n => exact h.refused hstep
  | forwarded n => exact h.forwarded hstep
  | sent k => exact h.sent hstep
  | moved k move => exact h.moved hstep
  | resumed n => exact h.resumed hstep
  | _ => exact h.quiet (ChannelServer.quiet_step hstep rfl)

theorem sound_run {es : List ServerEvent} (h : d.Sound config registry) (hes : d.run? es = some d') :
    d'.Sound config registry :=
  run_keeps (P := fun u => u.Sound config registry) (fun hu hs => hu.step hs) h hes

end Docket
end FrameStream
