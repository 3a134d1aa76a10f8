import FrameStream.Proofs.Channel.Stopping
import FrameStream.Proofs.Pool.Roster

/-!
# Cancellation stops a job

Whatever happens after a channel was cancelled, its job begins no read and none of its messages is queued; the read that
was under way may still submit one unit. The job makes four steps at most and can always be brought on until it has
returned. What it returns was told in full before the channel was cancelled, or says that the channel was closed or
that the request was rejected (`Workshop.cancellation_stops_job`).

The pool does not look at channels: units that were submitted stay in their places, end, and give back their slots.
-/

namespace FrameStream

/-- The outcome says that the request was rejected, or that the channel was closed before all was told. -/
def JobOutcome.cutsShort : JobOutcome → Bool
  | .rejected _ | .channelClosed | .finished .channelClosed _ => true
  | _ => false

/-- The event brings on the job `k`, whose channel is `n`: the job makes a step, somebody who waits on the channel goes
on, or the pool moves, but is not closed. -/
def WorkshopEvent.serves (k : Nat) (n : ChannelNumber) : WorkshopEvent → Bool
  | .server (.sent i) => i == k
  | .server (.resumed m) => m == n
  | .moved i => i == k
  | .pool e => e != .closed
  | _ => false

namespace ChannelServer

/-- Whoever waits on a closed channel can go on. -/
theorem isSome_resumed_closed {s : ChannelServer} {n : ChannelNumber} {o : Outbound} (ho : s.book.channels[n]? = some o)
    (hwaiting : o.waiting ≠ []) (hclosed : o.closed = true) : (s.step? (.resumed n)).isSome = true := by
  cases hw : o.waiting with
  | nil => exact absurd hw hwaiting
  | cons first rest =>
    simp [step?, resume?, ChannelBook.resume?, ChannelBook.channel?, ho, Outbound.resume?, hw, hclosed]

end ChannelServer

namespace Docket

variable {d d' : Docket} {k n : Nat} {l : Letter} {j : ChannelJob} {config : ServiceConfig} {registry : Registry}

/-- Nobody begins to wait on a closed channel. -/
theorem waiters_sent (h : d.Sound config registry) (hs : d.step? (.sent k) = some d') (hl : d.origins[k]? = some l)
    (hj : d.server.jobs[k]? = some j) (hclosed : d.server.book.closed l.connection = true) :
    d'.waiters = d.waiters := by
  obtain ⟨s, hstep, rfl⟩ := step?_eq_some hs
  obtain ⟨p, m, hp, hticket, hm, -⟩ := ChannelServer.step?_sent hstep
  rw [hj] at hp
  cases hp
  rw [← (h.answered.job k j l hj hl).channel] at hclosed
  have hmessage : j.message? = some m := by simp [ChannelJob.message?, hticket, hm]
  have hgone := (ChannelBook.send_closed_iff d.server.book j.channel d.server.nextTicket m.text).mpr hclosed
  show (d.note s (.sent k)).waiters = d.waiters
  simp only [note, hj, hl, hmessage, hgone]
  split <;> rfl

/-- Whoever goes on waits no more. -/
theorem waiters_resumed (h : d.Sound config registry) (hs : d.step? (.resumed n) = some d') :
    d'.waiters.length < d.waiters.length := by
  obtain ⟨s, hstep, rfl⟩ := step?_eq_some hs
  obtain ⟨w, delivered, hw, hnote, -⟩ := h.resumed_waiter hstep
  show (d.note s (.resumed n)).waiters.length < d.waiters.length
  rw [hnote]
  exact List.length_filter_lt_length_iff_exists.mpr ⟨w, hw, by simp⟩

/-- A job that waits on a closed channel can be turned away. -/
theorem Sound.isSome_resumed (h : d.Sound config registry) (hl : d.origins[k]? = some l)
    (hj : d.server.jobs[k]? = some j) (hclosed : d.server.book.closed l.connection = true)
    (hticket : j.ticket? ≠ none) : (d.step? (.resumed l.connection)).isSome = true := by
  obtain ⟨ticket, hticket⟩ := Option.ne_none_iff_exists'.mp hticket
  have hstands := h.answered.job k j l hj hl
  obtain ⟨m, -, hw⟩ := hstands.waits ticket hticket
  have hn : l.connection < d.server.book.channels.length := h.wired.channels ▸ h.wired.connected hstands.taken
  have ho := List.getElem?_eq_getElem hn
  rw [isSome_step?]
  refine ChannelServer.isSome_resumed_closed ho ?_ ?_
  · rw [h.mirrored.waiting l.connection _ ho]
    refine fun hnone => List.ne_nil_of_mem (List.mem_map_of_mem (List.mem_filter.mpr ⟨hw, ?_⟩)) hnone
    simp
  · simpa only [ChannelBook.closed, ChannelBook.channel?, ho] using hclosed

end Docket

namespace Workshop

variable {w w' : Workshop} {e : WorkshopEvent} {es : List WorkshopEvent} {k n : Nat} {l : Letter} {j j' : ChannelJob}
  {config : ServiceConfig} {registry : Registry}

/-! ## A job can be brought on -/

theorem isSome_server {e : ServerEvent} (he : e.isMove = false) (h : (w.docket.step? e).isSome = true) :
    (w.step? (.server e)).isSome = true := by
  simp only [step?, he, Bool.false_eq_true, ↓reduceIte, Option.isSome_map, h]

theorem isSome_moved {move : JobMove} (hj : w.docket.server.jobs[k]? = some j)
    (hmove : w.next? k j.phase = some move) : (w.step? (.moved k)).isSome = true := by
  have hstep : (w.docket.step? (.moved k move)).isSome = true := by
    rw [Docket.isSome_step?]
    simp only [ChannelServer.step?, hj, Option.map_some, Option.isSome_some]
  simp only [step?, hj, hmove, Option.bind_some, Option.isSome_map, hstep]

/-- A job on a closed channel that has not returned can be brought on. -/
theorem Kept.exists_serving (h : w.Kept config registry) (hl : w.docket.origins[k]? = some l)
    (hj : w.docket.server.jobs[k]? = some j) (hclosed : w.docket.server.book.closed l.connection = true)
    (hgoing : j.phase.outcome? = none) :
    ∃ e : WorkshopEvent, e.serves k l.connection = true ∧ (w.step? e).isSome = true := by
  have hmoved : ∀ {move : JobMove}, w.next? k j.phase = some move →
      ∃ e : WorkshopEvent, e.serves k l.connection = true ∧ (w.step? e).isSome = true := fun hmove =>
    ⟨.moved k, by simp [WorkshopEvent.serves], isSome_moved hj hmove⟩
  cases hm : j.phase.message? with
  | some m =>
    by_cases hticket : j.ticket? = none
    · refine ⟨.server (.sent k), by simp [WorkshopEvent.serves], isSome_server rfl ?_⟩
      rw [Docket.isSome_step?]
      exact ChannelServer.isSome_sent hj hticket hm
    · exact ⟨.server (.resumed l.connection), by simp [WorkshopEvent.serves],
        isSome_server rfl (h.sound.isSome_resumed hl hj hclosed hticket)⟩
  | none =>
    cases hp : j.phase with
    | opening job processor => exact hmoved (by rw [hp]; rfl)
    | refilling d => exact hmoved (by rw [hp]; rfl)
    | reading d => exact hmoved (by rw [hp]; rfl)
    | awaiting d f =>
      cases ho : w.pool.outcome? f.place with
      | some o => exact hmoved (by rw [hp, next?, ho]; rfl)
      | none =>
        -- The unit in front has not ended, so the pool can move.
        obtain ⟨text, r, lost, -, -, hhandled⟩ := h.stands k j l hj hl
        have hlt : f.place < w.pool.tasks.length := hhandled.place_lt hp
        obtain ⟨e, q, he, hq⟩ := Pool.exists_step h.slots (List.getElem?_eq_getElem hlt)
          (by simpa [Pool.outcome?, hlt] using ho)
        refine ⟨.pool e, by simpa [WorkshopEvent.serves] using he, ?_⟩
        simp only [step?, hq, Option.map_some, Option.isSome_some]
    | returned o => simp [hp, Phase.outcome?] at hgoing
    | _ => simp [hp, Phase.message?] at hm

/-! ## Bringing it on comes to an end -/

/-- A number that every event lowers that brings the job on: what the job has to do, who waits, and what the pool has to
do, with a unit that the job may still submit. -/
def toDo (w : Workshop) (j : ChannelJob) : Nat :=
  3 * j.left + w.docket.waiters.length + (2 * w.pool.tasks.length + 1 - w.pool.effort)

theorem pool_moved (hs : w.step? (.moved k) = some w') :
    w'.docket.waiters = w.docket.waiters ∧ w'.pool.tasks.length ≤ w.pool.tasks.length + 1 ∧
      w'.pool.effort = w.pool.effort := by
  obtain ⟨j, move, docket, -, -, hdocket, rfl⟩ := step?_moved hs
  obtain ⟨s, -, rfl⟩ := Docket.step?_eq_some hdocket
  refine ⟨rfl, ?_⟩
  show (j.phase.readDone w.pool).2.tasks.length ≤ _ ∧ (j.phase.readDone w.pool).2.effort = _
  rcases readDone_submits j.phase w.pool with hsame | ⟨processor, u, hsubmit⟩
  · rw [hsame]
    exact ⟨Nat.le_succ _, rfl⟩
  · rw [hsubmit, Pool.effort_submit]
    exact ⟨by simp [Pool.submit], rfl⟩

theorem toDo_step (h : w.Kept config registry) (hs : w.step? e = some w') (hl : w.docket.origins[k]? = some l)
    (hj : w.docket.server.jobs[k]? = some j) (hclosed : w.docket.server.book.closed l.connection = true)
    (hserves : e.serves k l.connection = true) (hj' : w'.docket.server.jobs[k]? = some j') :
    w'.toDo j' < w.toDo j := by
  obtain ⟨i, hi, -, hleft⟩ := left_step h.sound hs hl hj hclosed
  obtain rfl := Option.some.inj (hi.symm.trans hj')
  have heffort := w.pool.effort_le
  unfold toDo
  cases e with
  | server e =>
    obtain ⟨-, docket, hdocket, rfl⟩ := step?_server hs
    cases e with
    | sent m =>
      obtain rfl : m = k := by simpa [WorkshopEvent.serves] using hserves
      have hwaiters := Docket.waiters_sent h.sound hdocket hl hj hclosed
      simp only [WorkshopEvent.isOf, BEq.rfl, Bool.toNat_true] at hleft
      simp only [hwaiters]
      omega
    | resumed m =>
      have hwaiters := Docket.waiters_resumed h.sound hdocket
      simp only [WorkshopEvent.isOf, Bool.toNat_false] at hleft
      simp only
      omega
    | _ => cases hserves
  | moved m =>
    obtain rfl : m = k := by simpa [WorkshopEvent.serves] using hserves
    obtain ⟨hwaiters, htasks, hsame⟩ := pool_moved hs
    simp only [WorkshopEvent.isOf, BEq.rfl, Bool.toNat_true] at hleft
    rw [hwaiters, hsame]
    omega
  | pool e =>
    obtain ⟨pool, hpool, rfl⟩ := step?_pool hs
    have hmore := Pool.effort_step hpool
    have hlength := Pool.length_step hpool
    have hle := pool.effort_le
    simp only [WorkshopEvent.isOf, Bool.toNat_false] at hleft
    simp only
    omega
  | cancelled m => cases hserves

/-- Bringing a job on comes to an end. -/
theorem serving_length_le (h : w.Kept config registry) (hl : w.docket.origins[k]? = some l)
    (hj : w.docket.server.jobs[k]? = some j) (hclosed : w.docket.server.book.closed l.connection = true)
    (hserves : ∀ e ∈ es, e.serves k l.connection = true) (hr : w.run? es = some w') : es.length ≤ w.toDo j := by
  induction es generalizing w j with
  | nil => exact Nat.zero_le _
  | cons e es ih =>
    rw [run?_cons] at hr
    obtain ⟨v, hs, hr⟩ := Option.bind_eq_some_iff.mp hr
    obtain ⟨i, hi, -⟩ := left_step h.sound hs hl hj hclosed
    have hless := toDo_step h hs hl hj hclosed (hserves e List.mem_cons_self) hi
    have hrest := ih (h.step hs) ((extends_step hs).origin hl) hi
      (closed_step h.sound.wired hs (h.connected hl) hclosed) (fun e he => hserves e (List.mem_cons_of_mem _ he)) hr
    rw [List.length_cons]
    omega

/-! ## What a job returns -/

/-- An outcome that does not cut a request short stands for messages that were all delivered. -/
theorem lost_of_not_cutsShort {r : Request} {source : String → Except StreamError Resource} {closed : Bool}
    {o : JobOutcome} {delivered lost : List Message}
    (h : Transcript r config registry source closed o delivered lost) (ho : o.cutsShort = false) : lost = [] := by
  cases h with
  | unavailable job processor e accepted failed => rfl
  | completed job processor resource n sent accepted opened told all ended => rfl
  | resourceFailed job processor resource n sent e accepted opened told all failed => rfl
  | _ => cases ho

/-- A job that has returned was told about in full. -/
theorem Kept.transcript (h : w.Kept config registry) (hl : w.docket.origins[k]? = some l)
    (hj : w.docket.server.jobs[k]? = some j) {o : JobOutcome} (ho : j.phase = .returned o) :
    ∃ text r lost, w.docket.letter? l = some (.request text) ∧ Request.parse text = .ok r ∧
      Transcript r config registry (w.source k) w.pool.closed o (w.docket.heard l) lost := by
  obtain ⟨text, r, lost, hletter, hparse, hhandled⟩ := h.stands k j l hj hl
  exact ⟨text, r, lost, hletter, hparse, hhandled.transcript ho⟩

/-- What a job returns on a closed channel is accounted for by what its client had heard before. -/
theorem Kept.told_before (h : w.Kept config registry) (hl : w.docket.origins[k]? = some l)
    (hj : w.docket.server.jobs[k]? = some j) (hclosed : w.docket.server.book.closed l.connection = true)
    (hr : w.run? es = some w') (hj' : w'.docket.server.jobs[k]? = some j') {o : JobOutcome}
    (ho : j'.phase = .returned o) :
    ∃ text r lost, w.docket.letter? l = some (.request text) ∧ Request.parse text = .ok r ∧
      Transcript r config registry (w.source k) w'.pool.closed o (w.docket.heard l) lost := by
  obtain ⟨i, hi, hwinds, -⟩ := winds_run h hl hj hclosed hr
  obtain ⟨h', hextends, -⟩ := closed_run h hl hclosed hr
  obtain ⟨text, r, -, hletter, hparse, -⟩ := h.stands k j l hj hl
  obtain ⟨text', r', lost, hletter', hparse', htranscript⟩ := h'.transcript (hextends.origin hl) hj' ho
  obtain rfl := hextends.request_eq hletter hletter' hparse hparse'
  rw [hwinds.heard, congrFun (source_run hr) k] at htranscript
  exact ⟨text, r', lost, hletter, hparse, htranscript⟩

/-! ## What becomes of units -/

theorem moved_run {P : Pool → Prop} (hmoved : ∀ {p q : Pool}, P p → p.Moved q → P q) (h : P w.pool)
    (hr : w.run? es = some w') : P w'.pool :=
  run_keeps (P := fun v => P v.pool) (fun h hs => hmoved h (moved_step hs)) h hr

/-- A unit that was submitted stays where it is. -/
theorem task_run {place : Nat} {t : Task} (h : w.Kept config registry) (ht : w.pool.tasks[place]? = some t)
    (hr : w.run? es = some w') :
    ∃ t', w'.pool.tasks[place]? = some t' ∧ t'.processor = t.processor ∧ t'.unit = t.unit := by
  have hholds := moved_run (P := fun p => p.Holds place t.processor t.unit) (fun h hm => h.moved hm)
    (h.faithful place t ht) hr
  obtain ⟨s, hs, -⟩ := hholds
  exact ⟨_, hs, rfl, rfl⟩

/-- A unit that was submitted has ended once the pool can make no move, and every slot is free. -/
theorem Kept.units_end (h : w.Kept config registry) {es : List PoolEvent} {q : Pool} (hr : w.pool.run? es = some q)
    (hidle : q.Idle) : q.free = q.size ∧ ∀ place ∈ w.places k, ∃ t, q.tasks[place]? = some t ∧
      (t.stage = .ended (t.processor.process t.unit) ∨ (q.closed = true ∧ t.stage = .ended (Pool.refusal t.unit))) := by
  have hslots := Pool.run?_keeps (P := Pool.Conserved) (fun h hs => h.step hs) h.slots hr
  refine ⟨hidle.free_eq hslots, fun place hplace => ?_⟩
  obtain ⟨t, ht⟩ : ∃ t, w.pool.tasks[place]? = some t := ⟨_, List.getElem?_eq_getElem (h.placed k place hplace)⟩
  obtain ⟨s, hs, hends⟩ := Pool.run?_keeps (P := fun p => p.Holds place t.processor t.unit)
    (fun h hs => h.step hs) (h.faithful place t ht) hr
  obtain ⟨o, ho⟩ := hidle.ended hslots hs
  refine ⟨_, hs, ?_⟩
  cases s with
  | ended o' =>
    rcases hends o' rfl with hown | ⟨hclosed, hrefused⟩
    · exact .inl (congrArg Stage.ended hown)
    · exact .inr ⟨hclosed, congrArg Stage.ended hrefused⟩
  | _ => cases ho

/-! ## The main result -/

/-- The reads of the job `k` that are under way. -/
def underWay (w : Workshop) (k : Nat) : Nat := (w.docket.server.jobs[k]?).elim 0 (·.phase.underWay)

/-- The reads of the job `k` that were begun. -/
def readsBegun (w : Workshop) (k : Nat) : Nat := w.reads k + w.underWay k

theorem underWay_eq (hj : w.docket.server.jobs[k]? = some j) : w.underWay k = j.phase.underWay := by
  rw [underWay, hj]
  rfl

/-- A job whose channel is cancelled, through whatever happens. -/
theorem cancellation_stops_job {source : Nat → String → Except StreamError Resource} {depth size : Nat}
    (hrun : (start config registry depth size source).run? es = some w) (hj : w.docket.server.jobs[k]? = some j)
    (hl : w.docket.origins[k]? = some l) :
    -- A channel is cancelled by its client, by a sink that fails, by name, by its guard and by a shutdown. That is no
    -- step of the job.
    (∀ e w', w.Cancels j.channel e → w.step? e = some w' → w'.docket.server.book.Cancelled j.channel ∧
      w'.docket.server.jobs[k]? = some j ∧ w'.docket.heard l = w.docket.heard l ∧
      w'.readsBegun k = w.readsBegun k ∧ w'.places k = w.places k) ∧
    (w.docket.server.book.Cancelled j.channel →
      (∀ fs w', w.run? fs = some w' → ∃ j', w'.docket.server.jobs[k]? = some j' ∧
        -- No read is begun and no message is queued. At most one more unit is submitted, by a read under way.
        (w'.readsBegun k = w.readsBegun k ∧ w'.docket.heard l = w.docket.heard l ∧
          ∃ more, w'.places k = w.places k ++ more ∧ more.length ≤ w.underWay k) ∧
        -- What the job returns was told in full before the channel was cancelled, or cuts the request short.
        (∀ o, j'.phase = .returned o → ∃ text r lost, w.docket.letter? l = some (.request text) ∧
          Request.parse text = .ok r ∧
          Transcript r config registry (w.source k) w'.pool.closed o (w.docket.heard l) lost ∧
          (o.cutsShort = false → lost = []) ∧
          (w.docket.heard l).filterMap Message.index? = List.range o.emitted) ∧
        -- The job makes four steps at most, and can be brought on until it has returned.
        fs.countP (·.isOf k) ≤ 4 ∧
        (j'.phase.outcome? = none → ∃ e : WorkshopEvent, e.serves k j.channel = true ∧ (w'.step? e).isSome = true)) ∧
      ∃ bound, ∀ fs w', w.run? fs = some w' → (∀ e ∈ fs, e.serves k j.channel = true) → fs.length ≤ bound) ∧
    -- Units that were submitted stay in their places, and end; then every slot is free.
    ∀ fs w', w.run? fs = some w' →
      (w'.pool.free + w'.pool.running = w'.pool.size ∧ w'.pool.size = w.pool.size) ∧
      (∀ place ∈ w.places k, ∃ t t', w.pool.tasks[place]? = some t ∧ w'.pool.tasks[place]? = some t' ∧
        t'.processor = t.processor ∧ t'.unit = t.unit) ∧
      ∀ gs q, w'.pool.run? gs = some q → gs.length ≤ 2 * w'.pool.tasks.length + 1 ∧
        (q.Idle → q.free = q.size ∧ ∀ place ∈ w'.places k, ∃ t, q.tasks[place]? = some t ∧
          (t.stage = .ended (t.processor.process t.unit) ∨
            (q.closed = true ∧ t.stage = .ended (Pool.refusal t.unit)))) := by
  have hkept : w.Kept config registry := kept_run hrun
  have hchannel : j.channel = l.connection := (hkept.sound.answered.job k j l hj hl).channel
  have hn := hkept.connected hl
  rw [hchannel]
  refine ⟨fun e w' hcancels hs => ?_, fun hcancelled => ?_, fun fs w' hr => ?_⟩
  · obtain ⟨hjobs, hsaid, hreads, hplaces⟩ := hcancels.aside hs
    refine ⟨hcancels.cancelled hkept.sound.wired hn hs, by rw [hjobs, hj], Docket.heard_of_said hsaid l, ?_, ?_⟩
    · rw [readsBegun, readsBegun, underWay, underWay, hjobs, hreads]
    · rw [hplaces]
  · have hclosed := hcancelled.closed
    refine ⟨fun fs w' hr => ?_, w.toDo j, fun fs w' hr hserves => serving_length_le hkept hl hj hclosed hserves hr⟩
    obtain ⟨j', hj', hwinds, hleft⟩ := winds_run hkept hl hj hclosed hr
    obtain ⟨hkept', hextends, hclosed'⟩ := closed_run hkept hl hclosed hr
    refine ⟨j', hj', ⟨?_, hwinds.heard, ?_⟩, fun o ho => ?_, ?_,
      hkept'.exists_serving (hextends.origin hl) hj' hclosed'⟩
    · rw [readsBegun, readsBegun, underWay_eq hj, underWay_eq hj']
      exact hwinds.begun
    · obtain ⟨more, hmore, hle⟩ := hwinds.places
      refine ⟨more, hmore, ?_⟩
      rw [underWay_eq hj]
      omega
    · obtain ⟨text, r, lost, hletter, hparse, htranscript⟩ := hkept.told_before hl hj hclosed hr hj' ho
      exact ⟨text, r, lost, hletter, hparse, htranscript, lost_of_not_cutsShort htranscript, htranscript.indices⟩
    · have hfour : j.left ≤ 4 := Phase.left_le j.released j.phase
      omega
  · have hkept' := run_keeps (P := fun w => w.Kept config registry) Kept.step hkept hr
    refine ⟨⟨hkept'.slots.slots, ?_⟩, fun place hplace => ?_, fun gs q hgs =>
      ⟨Pool.run?_length_le hgs, hkept'.units_end hgs⟩⟩
    · exact moved_run (P := fun p => p.size = w.pool.size) (fun h hm => (Pool.size_moved hm).trans h) rfl hr
    · have ht := List.getElem?_eq_getElem (hkept.placed k place hplace)
      obtain ⟨t', ht', hsame⟩ := task_run hkept ht hr
      exact ⟨_, t', ht, ht', hsame⟩

/-- A video of three frames. -/
def brief : Resource := { outcomes := [.frame ⟨1, 1, [0, 0, 0]⟩, .frame ⟨1, 1, [1, 1, 1]⟩, .frame ⟨1, 1, [2, 2, 2]⟩] }

/-- The client closes its channel while the second of three frames is read and the unit of the first is processed. -/
def calledOff : List WorkshopEvent :=
  [.server (.accepted "c"),
    .server (.arrived 0 (.request (Bytes.ofText "\x7b\"key\":\"a\",\"resource\":\"v\"\x7d"))), .server (.taken 0),
    .server (.sent 0), .moved 0, .moved 0, .moved 0, .pool (.started 0), .moved 0,
    .server (.arrived 0 (.close none)), .server (.taken 0)]

/-- The read comes to its end, then the unit, whose result nobody hears of. -/
def windingUp : List WorkshopEvent := [.moved 0, .moved 0, .pool (.finished 0), .moved 0, .server (.sent 0)]

/-- Of the second frame a unit is made, the third one is not read, and the job returns that it told of no unit. -/
theorem cancellation_stops_job_called_off : ∃ w w' j',
    (start { window := 2, defaultModel := "echo" } Registry.builtins 4 1 fun _ _ => .ok brief).run? calledOff = some w ∧
    w.docket.heard ⟨0, 0⟩ = [.accepted "a"] ∧ w.places 0 = [0] ∧
    (w.run? windingUp = some w' ∧ w'.docket.server.jobs[0]? = some j' ∧
      j'.phase = .returned (.finished .channelClosed 0) ∧ w'.places 0 = [0, 1]) ∧
    ∀ fs v, w.run? fs = some v → v.readsBegun 0 = 2 ∧ v.docket.heard ⟨0, 0⟩ = [.accepted "a"] ∧
      (v.places 0).length ≤ 2 := by
  have hruns : ∃ w j w' j',
      (start { window := 2, defaultModel := "echo" } Registry.builtins 4 1 fun _ _ => .ok brief).run? calledOff =
        some w ∧
      (w.docket.server.jobs[0]? = some j ∧ w.docket.origins[0]? = some ⟨0, 0⟩ ∧
        w.docket.server.book.Cancelled j.channel) ∧
      (w.docket.heard ⟨0, 0⟩ = [.accepted "a"] ∧ w.places 0 = [0] ∧ w.readsBegun 0 = 2 ∧ w.underWay 0 = 1) ∧
      w.run? windingUp = some w' ∧ w'.docket.server.jobs[0]? = some j' ∧
        j'.phase = .returned (.finished .channelClosed 0) ∧ w'.places 0 = [0, 1] :=
    ⟨_, _, _, _, rfl, ⟨rfl, rfl, _, rfl, rfl⟩, ⟨rfl, rfl, rfl, rfl⟩, rfl, rfl, rfl, rfl⟩
  obtain ⟨w, j, w', j', hrun, ⟨hj, hl, hcancelled⟩, ⟨hheard, hplaces, hbegun, hunder⟩, hend⟩ := hruns
  obtain ⟨-, hstops, -⟩ := cancellation_stops_job hrun hj hl
  refine ⟨w, w', j', hrun, hheard, hplaces, hend, fun fs v hr => ?_⟩
  obtain ⟨i, -, ⟨hreads, hsame, more, hmore, hle⟩, -⟩ := (hstops hcancelled).1 fs v hr
  refine ⟨hreads.trans hbegun, hsame.trans hheard, ?_⟩
  rw [hmore, hplaces, List.length_append]
  show 1 + more.length ≤ 2
  omega

end Workshop
end FrameStream
