import FrameStream.Proofs.Channel.Custody
import FrameStream.Proofs.Channel.Workshop

/-!
# What a job does on a channel that is cancelled

A channel is cancelled when its client says goodbye or is lost, when a frame cannot be written, when the channel is
closed by name, when its guard is dropped or when everything is shut down (`Workshop.Cancels`). From then on its job
begins no read and none of its messages is queued, whatever else happens, and every step of its own leads it on to its
end (`Workshop.winds_run`).
-/

namespace FrameStream

/-- The steps that a job makes at most once its channel is closed. -/
def ChannelJob.left (j : ChannelJob) : Nat := j.phase.left j.released

/-- Who gives back the slot for the last message has one step less to make. -/
theorem Phase.left_release {p : Phase} {m : Message} (hm : p.message? = some m) (h : p.finishing = true) :
    p.left true < p.left false := by
  cases p with
  | rejecting key e => exact Nat.lt_succ_self 1
  | reporting job e => exact Nat.lt_succ_self 1
  | failing d e => exact Nat.lt_succ_self 1
  | returned o => cases hm
  | _ => cases h

namespace WorkshopEvent

/-- The event is a step of the job `k`. -/
def isOf (k : Nat) : WorkshopEvent → Bool
  | .server (.sent i) => i == k
  | .moved i => i == k
  | _ => false

end WorkshopEvent

namespace Workshop

/-- The event cancels the channel `n`. -/
inductive Cancels (w : Workshop) (n : ChannelNumber) : WorkshopEvent → Prop where
  /-- The client says goodbye, or the connection is lost. -/
  | parted (c : Connection) (i : Inbound) (rest : List Inbound) (at_ : w.docket.server.connections[n]? = some c)
      (next : c.inbound = i :: rest) (parting : i.parting = true) : Cancels w n (.server (.taken n))
  | writeFailed : Cancels w n (.server (.writeFailed n))
  | closed (conn : String) (under : w.docket.server.book.chart.get? conn = some n) :
      Cancels w n (.server (.closed conn))
  /-- A guard is dropped, or whoever has a handle cancels the channel. -/
  | dropped : Cancels w n (.cancelled n)
  | shutDown (conn : String) (under : w.docket.server.book.chart.get? conn = some n) :
      Cancels w n (.server .shutDown)

variable {w w' : Workshop} {e : WorkshopEvent} {es : List WorkshopEvent} {k n : Nat} {l : Letter} {j j' : ChannelJob}
  {config : ServiceConfig} {registry : Registry}

/-! ## What cancels a channel -/

theorem cancelled_leave {c : Connection} {b : ChannelBook} (hn : c.channel < b.channels.length) :
    (c.leave b).2.Cancelled c.channel := by
  have hcancel : (b.cancel c.channel).Cancelled c.channel := ChannelBook.cancelled_modify (fun _ => rfl) hn
  have hclose := hcancel.calm ((b.cancel c.channel).calm_close c.conn)
  exact hclose.calm (ChannelBook.calm_modify Outbound.calm_dropSender _ c.channel)

/-- A receive loop that learns that its client is gone leaves, and no job is started. -/
theorem step?_parting {c : Connection} {i : Inbound} {rest : List Inbound} {s s' : ChannelServer}
    (hc : s.connections[n]? = some c) (hnext : c.inbound = i :: rest) (hparting : i.parting = true)
    (hs : s.step? (.taken n) = some s') :
    s' = s.setConnection n ({ c with inbound := rest }.leave s.book) := by
  obtain ⟨c', -, -, -, -, hc', hlistens, -, -⟩ := ChannelServer.step?_taken hs
  rw [hc] at hc'
  cases hc'
  simp only [ChannelServer.step?, ChannelServer.take?, hc, Connection.take?, hlistens, hnext, hparting, ↓reduceIte,
    Option.map_some, Option.toList_none, List.append_nil, Option.some.injEq] at hs
  exact hs.symm

theorem Cancels.cancelled (h : w.Cancels n e) (hwired : w.docket.Wired) (hn : n < w.docket.server.connections.length)
    (hs : w.step? e = some w') : w'.docket.server.book.Cancelled n := by
  have hlt : n < w.docket.server.book.channels.length := hwired.channels ▸ hn
  cases h with
  | parted c i rest at_ next parting =>
    obtain ⟨s, hstep, rfl⟩ := step?_noted hs
    obtain rfl := step?_parting at_ next parting hstep
    have hchannel := hwired.channel n c at_
    have hleft := cancelled_leave (c := { c with inbound := rest }) (hchannel.symm ▸ hlt)
    exact hchannel ▸ hleft
  | writeFailed =>
    obtain ⟨s, hstep, rfl⟩ := step?_noted hs
    simp only [ChannelServer.step?, Option.ite_none_right_eq_some, Option.some.injEq] at hstep
    obtain ⟨-, rfl⟩ := hstep
    have hc := List.getElem?_eq_getElem hn
    have hchannel := hwired.channel n _ hc
    rw [ChannelServer.writeFailed, ChannelServer.onConnection?_getD hc]
    have hcancel : (w.docket.server.book.cancel n).Cancelled n := ChannelBook.cancelled_modify (fun _ => rfl) hlt
    show ((w.docket.server.connections[n].writeFailed w.docket.server.book).2).Cancelled n
    rw [Connection.writeFailed, hchannel]
    exact hcancel.calm (ChannelServer.calm_stop _ _)
  | closed conn under =>
    obtain ⟨s, hstep, rfl⟩ := step?_noted hs
    cases hstep
    exact (Custody.cancelled_close under hlt).2
  | dropped =>
    cases hs
    exact ChannelBook.cancelled_modify (fun _ => rfl) hlt
  | shutDown conn under =>
    obtain ⟨s, hstep, rfl⟩ := step?_noted hs
    cases hstep
    exact Custody.cancelled_shutdownAll under hlt

/-- What cancels a channel is no step of a job: nothing is said, and no read is begun or done. -/
theorem Cancels.aside (h : w.Cancels n e) (hs : w.step? e = some w') :
    w'.docket.server.jobs = w.docket.server.jobs ∧ w'.docket.said = w.docket.said ∧
      w'.reads = w.reads ∧ w'.places = w.places := by
  cases h with
  | parted c i rest at_ next parting =>
    obtain ⟨s, hstep, rfl⟩ := step?_noted hs
    obtain rfl := step?_parting at_ next parting hstep
    exact ⟨rfl, rfl, rfl, rfl⟩
  | writeFailed =>
    obtain ⟨s, hstep, rfl⟩ := step?_noted hs
    exact ⟨Docket.jobs_quiet hstep rfl nofun, rfl, rfl, rfl⟩
  | closed conn under =>
    obtain ⟨s, hstep, rfl⟩ := step?_noted hs
    exact ⟨Docket.jobs_quiet hstep rfl nofun, rfl, rfl, rfl⟩
  | dropped =>
    cases hs
    exact ⟨rfl, rfl, rfl, rfl⟩
  | shutDown conn under =>
    obtain ⟨s, hstep, rfl⟩ := step?_noted hs
    exact ⟨Docket.jobs_quiet hstep rfl nofun, rfl, rfl, rfl⟩

/-! ## What a step is to a job whose channel is closed -/

/-- From `w` to `w'` the job `k` has begun no read, and its client has heard nothing more. -/
structure Winds (w w' : Workshop) (k : Nat) (l : Letter) (j j' : ChannelJob) : Prop where
  heard : w'.docket.heard l = w.docket.heard l
  begun : w'.reads k + j'.phase.underWay = w.reads k + j.phase.underWay
  places : ∃ more, w'.places k = w.places k ++ more ∧ more.length + j'.phase.underWay ≤ j.phase.underWay

theorem Winds.refl (w : Workshop) (k : Nat) (l : Letter) (j : ChannelJob) : w.Winds w k l j j where
  heard := rfl
  begun := rfl
  places := ⟨[], (List.append_nil _).symm, Nat.le_of_eq (Nat.zero_add _)⟩

theorem Winds.trans {w'' : Workshop} {j'' : ChannelJob} (h : w.Winds w' k l j j') (h' : w'.Winds w'' k l j' j'') :
    w.Winds w'' k l j j'' where
  heard := h'.heard.trans h.heard
  begun := h'.begun.trans h.begun
  places := by
    obtain ⟨more, hmore, hle⟩ := h.places
    obtain ⟨more', hmore', hle'⟩ := h'.places
    refine ⟨more ++ more', by rw [hmore', hmore, List.append_assoc], ?_⟩
    rw [List.length_append]
    omega

theorem Steps.winds (h : w.Steps w' k l j j') (hclosed : w.docket.server.book.closed l.connection = true) :
    (w.course k l j []).Winds (w'.course k l j' []) := by
  obtain ⟨e, hanswers, hstep⟩ := h
  obtain ⟨lost, hstep⟩ := hstep []
  obtain ⟨hdelivered, hbegun, hplaces, hleft⟩ := Course.winds_step (hanswers hclosed) hstep
  exact ⟨hdelivered, hbegun, hplaces, hleft⟩

theorem Turn.winds (h : w.Turn w' k l j j') (hclosed : w.docket.server.book.closed l.connection = true) :
    w.Winds w' k l j j' := by
  rcases h.goes with hstays | hsteps
  · refine ⟨hstays.heard, by rw [hstays.reads, hstays.phase], [], ?_, ?_⟩
    · rw [hstays.places, List.append_nil]
    · rw [hstays.phase]
      exact Nat.le_of_eq (Nat.zero_add _)
  · have hwinds := hsteps.winds hclosed
    have hbegun := hwinds.begun
    rw [Course.readsBegun_eq, Course.readsBegun_eq] at hbegun
    exact ⟨hwinds.delivered, hbegun, hwinds.places⟩

theorem Turn.left_le (h : w.Turn w' k l j j') (hclosed : w.docket.server.book.closed l.connection = true) :
    j'.left ≤ j.left := by
  have hreleased : j.phase.left j'.released ≤ j.left := Phase.left_mono h.kept j.phase
  rcases h.goes with hstays | hsteps
  · rw [ChannelJob.left, hstays.phase]
    exact hreleased
  · exact Nat.le_trans (Nat.le_of_lt ((hsteps.winds hclosed).left j'.released)) hreleased

/-- A job that is to say something gives back its slot first or learns that nobody takes it. -/
theorem left_sent (h : w.docket.Sound config registry) (hs : w.step? (.server (.sent k)) = some w')
    (hl : w.docket.origins[k]? = some l) (hj : w.docket.server.jobs[k]? = some j)
    (hclosed : w.docket.server.book.closed l.connection = true) (hj' : w'.docket.server.jobs[k]? = some j') :
    j'.left < j.left := by
  obtain ⟨s, hstep, rfl⟩ := step?_noted hs
  have hlt := (List.getElem?_eq_some_iff.mp hj).1
  obtain ⟨p, m, hp, -, hm, ⟨hlast, hheld, rfl⟩ | ⟨-, rfl⟩⟩ := ChannelServer.step?_sent hstep
  · rw [hj] at hp
    cases hp
    obtain rfl := Option.some.inj ((List.getElem?_set_self hlt).symm.trans hj')
    rw [h.isLast_eq hj hm] at hlast
    rw [ChannelJob.left, ChannelJob.left, hheld]
    exact Phase.left_release hm hlast
  · rw [hj] at hp
    cases hp
    obtain rfl := Option.some.inj ((List.getElem?_set_self hlt).symm.trans hj')
    rw [← (h.answered.job k j l hj hl).channel] at hclosed
    rw [(ChannelBook.send_closed_iff ..).mpr hclosed]
    obtain ⟨hpos, -, o, ho⟩ := Phase.unheard hm j.released
    show (j.phase.answered false).left j.released < j.left
    rw [ho]
    exact hpos

/-- Every step on a closed channel leads a job to its end, and a step of the job itself leads it on. -/
theorem left_step (h : w.docket.Sound config registry) (hs : w.step? e = some w')
    (hl : w.docket.origins[k]? = some l) (hj : w.docket.server.jobs[k]? = some j)
    (hclosed : w.docket.server.book.closed l.connection = true) :
    ∃ j', w'.docket.server.jobs[k]? = some j' ∧ w.Winds w' k l j j' ∧ j'.left + (e.isOf k).toNat ≤ j.left := by
  obtain ⟨j', hj', hturn⟩ := turn h hs hl hj
  refine ⟨j', hj', hturn.winds hclosed, ?_⟩
  have hle := hturn.left_le hclosed
  cases hown : e.isOf k with
  | false => exact hle
  | true =>
    show j'.left < j.left
    cases e with
    | server e =>
      cases e with
      | sent i =>
        obtain rfl : i = k := by simpa [WorkshopEvent.isOf] using hown
        exact left_sent h hs hl hj hclosed hj'
      | _ => cases hown
    | moved i =>
      obtain rfl : i = k := by simpa [WorkshopEvent.isOf] using hown
      obtain ⟨phase, hi, hsteps⟩ := steps_moved h hs hl hj
      obtain rfl := Option.some.inj (hi.symm.trans hj')
      exact (hsteps.winds hclosed).left j.released
    | _ => cases hown

theorem winds_run (h : w.Kept config registry) (hl : w.docket.origins[k]? = some l)
    (hj : w.docket.server.jobs[k]? = some j) (hclosed : w.docket.server.book.closed l.connection = true)
    (hr : w.run? es = some w') : ∃ j', w'.docket.server.jobs[k]? = some j' ∧ w.Winds w' k l j j' ∧
      j'.left + es.countP (·.isOf k) ≤ j.left := by
  induction es generalizing w j with
  | nil =>
    cases hr
    exact ⟨j, hj, .refl _ k l j, Nat.le_refl _⟩
  | cons e es ih =>
    rw [run?_cons] at hr
    obtain ⟨v, hs, hr⟩ := Option.bind_eq_some_iff.mp hr
    obtain ⟨i, hi, hwinds, hleft⟩ := left_step h.sound hs hl hj hclosed
    have hn := h.connected hl
    obtain ⟨j', hj', hwinds', hleft'⟩ := ih (h.step hs) ((extends_step hs).origin hl) hi
      (closed_step h.sound.wired hs hn hclosed) hr
    refine ⟨j', hj', hwinds.trans hwinds', ?_⟩
    have hcount : (e :: es).countP (·.isOf k) = es.countP (·.isOf k) + (e.isOf k).toNat := by
      rw [List.countP_cons]
      cases e.isOf k <;> rfl
    omega

end Workshop
end FrameStream
