import FrameStream.Proofs.Channel.Tenure
import FrameStream.Proofs.Channel.Turns

/-!
# How a job gets on

A step lets a job stand where it stood, or it moves the job on, or something becomes of the job's message: the message
starts to wait, it gets into the queue, or it is lost because the channel is closed (`Docket.Advances`). Jobs that were
not there before are started by a receive loop (`Docket.Starts`).

A job gives back its slot only when nothing is left for it to do but to say its last message, and it says that message
only after it gave the slot back.
-/

namespace FrameStream

/-- Nothing is left to do but to say the last message, if there is one. -/
def Phase.finishing : Phase → Bool
  | .rejecting _ _ => true
  | .reporting _ _ => true
  | .failing _ _ => true
  | .returned _ => true
  | _ => false

section

variable {p : Phase} {m : Message} {j : ChannelJob} {s : ChannelServer}

theorem Phase.finishing_answered (h : p.finishing = true) (delivered : Bool) :
    (p.answered delivered).finishing = true := by
  cases p with
  | rejecting key e => rfl
  | reporting job e => cases delivered <;> rfl
  | failing d e => cases delivered <;> rfl
  | returned o => rfl
  | _ => cases h

theorem Phase.finishing_of_outcome? (h : p.outcome?.isSome = true) : p.finishing = true := by
  cases p with
  | returned o => rfl
  | _ => cases h

theorem JobMove.phase_of_finishing {move : JobMove} (h : j.phase.finishing = true) : move.phase s j = j.phase := by
  cases hp : j.phase <;> cases move <;> simp_all [JobMove.phase, Phase.opened, Phase.looked, Phase.readDone,
    Phase.unitEnded, Phase.finishing]

end

/-- The slot is given back at the end only, and before the last message. -/
structure ChannelJob.Settled (j : ChannelJob) : Prop where
  finishing : j.released = true → j.phase.finishing = true
  waits : j.ticket? ≠ none → ∀ m, j.phase.message? = some m → m.isLast = true → j.released = true

/-- A job that hands over its last message gave back its slot before. -/
theorem ChannelJob.Settled.last_released {j : ChannelJob} {m : Message} (h : j.Settled)
    (hm : j.phase.message? = some m) (hfirst : j.ticket? = none → m.isLast = true → j.released = true)
    (hlast : m.isLast = true) : j.released = true := by
  by_cases hticket : j.ticket? = none
  · exact hfirst hticket hlast
  · exact h.waits hticket m hm hlast

namespace Docket

/-- What a step does to the job `k`, which was started for the letter `l`. -/
inductive Advances (d d' : Docket) (e : ServerEvent) (k : Nat) (l : Letter) (j j' : ChannelJob) : Prop where
  | stays (home : j'.conn = j.conn ∧ j'.channel = j.channel ∧ j'.id = j.id) (phase : j'.phase = j.phase)
      (ticket : j'.ticket? = j.ticket?) (kept : j.released = true → j'.released = true)
      (gave : j'.released = true → j.released = true ∨ j.phase.finishing = true) (heard : d'.heard l = d.heard l)
  | moved (move : JobMove) (event : e = .moved k move) (after : j' = { j with phase := move.phase d.server j })
      (heard : d'.heard l = d.heard l)
  | waits (m : Message) (message : j.phase.message? = some m) (before : j.ticket? = none)
      (last : m.isLast = true → j.released = true) (after : j' = { j with ticket? := some d.server.nextTicket })
      (heard : d'.heard l = d.heard l)
  | said (m : Message) (message : j.phase.message? = some m)
      (last : j.ticket? = none → m.isLast = true → j.released = true)
      (opened : d.server.book.closed l.connection = false) (after : j' = j.answered true)
      (said : d'.said = d.said ++ [(l, m)])
  | lost (m : Message) (message : j.phase.message? = some m)
      (last : j.ticket? = none → m.isLast = true → j.released = true)
      (gone : d.server.book.closed l.connection = true) (after : j' = j.answered false) (heard : d'.heard l = d.heard l)

variable {d d' : Docket} {s : ChannelServer} {l l' : Letter} {j j' : ChannelJob} {m : Message} {n k i : Nat}
  {config : ServiceConfig} {registry : Registry} {e : ServerEvent}

theorem Advances.same (h : d'.heard l = d.heard l) : d.Advances d' e k l j j := .stays ⟨rfl, rfl, rfl⟩ rfl rfl id .inl h

/-- The last message of a job is the one that it is to say when nothing else is left to do. -/
theorem Sound.isLast_eq (h : d.Sound config registry) (hj : d.server.jobs[k]? = some j)
    (hm : j.phase.message? = some m) : m.isLast = j.phase.finishing := by
  obtain ⟨l, hl⟩ := h.wired.exists_origin hj
  obtain ⟨text, r, -, -, hspeech⟩ := (h.answered.job k j l hj hl).speech
  generalize d.heard l = heard at hspeech
  cases hp : j.phase with
  | sending u said =>
    rw [hp] at hm hspeech
    cases hm
    cases hspeech with
    | accepted job processor accepted p working rest later =>
      cases m with
      | result key index data => rfl
      | unitError key index reason => rfl
      | _ => cases working
  | rejecting key x =>
    rw [hp] at hm
    cases hm
    rfl
  | reporting job x =>
    rw [hp] at hm
    cases hm
    rfl
  | failing u x =>
    rw [hp] at hm
    cases hm
    rfl
  | acknowledging job processor =>
    rw [hp] at hm
    cases hm
    rfl
  | _ =>
    rw [hp] at hm
    cases hm

/-- No two jobs were started for one letter. -/
theorem Answered.eq_of_origin (h : d.Answered config registry) (hi : d.origins[i]? = some l)
    (hk : d.origins[k]? = some l) : i = k :=
  (List.getElem?_inj (List.getElem?_eq_some_iff.mp hi).1 h.distinct).mp (hi.trans hk.symm)

/-! ## What is said in a step -/

theorem said_handed (d : Docket) (s : ChannelServer) (l : Letter) (m : Message) (delivery : Delivery) :
    ({ d.handed l m delivery with server := s } : Docket).said =
      if delivery = .queued then d.said ++ [(l, m)] else d.said := by
  cases delivery <;> rfl

theorem heard_handed (hne : l' ≠ l) (delivery : Delivery) :
    ({ d.handed l' m delivery with server := s } : Docket).heard l = d.heard l := by
  cases delivery with
  | queued => exact (heard_append (d := d) rfl l).trans (if_neg hne)
  | closed => rfl
  | waits => rfl

theorem Mirrored.said_answered (h : d.Mirrored) {w : Waiter} (hw : w ∈ d.waiters) (delivered : Bool) :
    ({ d.answered w.ticket delivered with server := s } : Docket).said =
      if delivered then d.said ++ [(w.letter, w.message)] else d.said := by
  cases delivered with
  | true => simp [answered, filter_ticket h.tickets hw]
  | false => simp [answered]

/-- Who goes on when somebody who waited does. -/
theorem Sound.resumed_waiter (h : d.Sound config registry) (hs : d.server.step? (.resumed n) = some s) :
    ∃ w delivered, w ∈ d.waiters ∧ (∀ s, d.note s (.resumed n) = d.answered w.ticket delivered) ∧
      d.server.book.closed w.letter.connection = !delivered ∧
      s.jobs = (d.server.answer w.ticket delivered).jobs := by
  obtain ⟨o, ticket, delivered, o', ho, hresume, rfl⟩ := ChannelServer.step?_resumed hs
  obtain ⟨text, rest, hwaiting, hcases⟩ := Outbound.resume?_eq_some.mp hresume
  obtain ⟨w, hw, rfl, rfl, rfl, -⟩ := h.mirrored.exists_waiter ho hwaiting
  refine ⟨w, delivered, hw, fun s => ?_, ?_, rfl⟩
  · simp [note, ChannelBook.resume?, ChannelBook.channel?, ho, hresume]
  · rcases hcases with ⟨hclosed, rfl, -⟩ | ⟨hopen, -, rfl, -⟩
    · simp [ChannelBook.closed, ChannelBook.channel?, ho, hclosed]
    · simp [ChannelBook.closed, ChannelBook.channel?, ho, hopen]

/-- A message that is handed to a queue is said at once only on an open channel. -/
theorem said_handed_cases (d : Docket) (s : ChannelServer) (l : Letter) (m : Message) (ticket : Nat) (text : String) :
    ({ d.handed l m (d.server.book.send l.connection ticket text).1 with server := s } : Docket).said = d.said ∨
      (({ d.handed l m (d.server.book.send l.connection ticket text).1 with server := s } : Docket).said =
        d.said ++ [(l, m)] ∧ d.server.book.closed l.connection = false) := by
  rw [said_handed]
  split
  · rename_i hqueued
    refine .inr ⟨rfl, Bool.eq_false_iff.mpr fun hclosed => ?_⟩
    rw [(ChannelBook.send_closed_iff ..).mpr hclosed] at hqueued
    cases hqueued
  · exact .inl rfl

/-- A step says one message at most, and only on an open channel. -/
theorem Sound.said_step (h : d.Sound config registry) (hs : d.step? e = some d') :
    d'.said = d.said ∨ ∃ l m, d'.said = d.said ++ [(l, m)] ∧ d.server.book.closed l.connection = false := by
  obtain ⟨s, hstep, rfl⟩ := step?_eq_some hs
  cases e with
  | refused n =>
    obtain ⟨c, m, hc, hreceiving, -⟩ := ChannelServer.step?_refused hstep
    have hnote : d.note s (.refused n) = d.handed (d.last n) m
        (d.server.book.send (d.last n).connection d.server.nextTicket m.text).1 := by
      simp only [note, hc, hreceiving, h.wired.channel n c hc, last]
    rw [hnote]
    exact (said_handed_cases ..).imp_right fun hsaid => ⟨_, _, hsaid⟩
  | sent k =>
    obtain ⟨j, m, hj, hticket, hm, hcases⟩ := ChannelServer.step?_sent hstep
    obtain ⟨l, hl⟩ := h.wired.exists_origin hj
    have hmessage : j.message? = some m := by simp [ChannelJob.message?, hticket, hm]
    cases hgives : m.isLast && !j.released with
    | true =>
      have hnote : d.note s (.sent k) = d := by simp only [note, hj, hl, hmessage, hgives, if_true]
      rw [hnote]
      exact .inl rfl
    | false =>
      have hnote : d.note s (.sent k) = d.handed l m
          (d.server.book.send l.connection d.server.nextTicket m.text).1 := by
        simp only [note, hj, hl, hmessage, hgives, Bool.false_eq_true, if_false, (h.answered.job k j l hj hl).channel]
      rw [hnote]
      exact (said_handed_cases ..).imp_right fun hsaid => ⟨_, _, hsaid⟩
  | resumed n =>
    obtain ⟨w, delivered, hw, hnote, hclosed, -⟩ := h.resumed_waiter hstep
    rw [hnote, h.mirrored.said_answered hw]
    cases delivered with
    | true => exact .inr ⟨_, _, rfl, hclosed⟩
    | false => exact .inl rfl
  | forwarded n =>
    simp only [note]
    split <;> exact .inl rfl
  | _ => exact .inl rfl

/-! ## One step of a job -/

theorem Sound.advances_sent (h : d.Sound config registry) (hs : d.server.step? (.sent i) = some s)
    (hl : d.origins[k]? = some l) (hj : d.server.jobs[k]? = some j) :
    ∃ j', s.jobs[k]? = some j' ∧ d.Advances { d.note s (.sent i) with server := s } (.sent i) k l j j' := by
  obtain ⟨p, m, hp, hticket, hm, hcases⟩ := ChannelServer.step?_sent hs
  obtain ⟨l', hl'⟩ := h.wired.exists_origin hp
  have hlt := (List.getElem?_eq_some_iff.mp hp).1
  have hmessage : p.message? = some m := by simp [ChannelJob.message?, hticket, hm]
  rcases hcases with ⟨hlast, hreleased, rfl⟩ | ⟨hlast, rfl⟩
  · have hnote : ∀ s, d.note s (.sent i) = d := by simp [note, hp, hl', hmessage, hlast, hreleased]
    rw [hnote]
    by_cases hik : i = k
    · subst hik
      rw [hj] at hp
      cases hp
      refine ⟨_, List.getElem?_set_self hlt, .stays ⟨rfl, rfl, rfl⟩ rfl rfl (fun _ => rfl) (fun _ => .inr ?_) rfl⟩
      rw [← h.isLast_eq hj hm]
      exact hlast
    · exact ⟨j, (List.getElem?_set_ne hik).trans hj, .same rfl⟩
  · have hchannel := (h.answered.job i p l' hp hl').channel
    have hnote : ∀ s, d.note s (.sent i) = d.handed l' m
        (d.server.book.send p.channel d.server.nextTicket m.text).1 := by
      intro s
      cases hend : m.isLast <;> simp_all [note]
    rw [hnote]
    by_cases hik : i = k
    · subst hik
      rw [hj] at hp
      cases hp
      rw [hl] at hl'
      cases hl'
      refine ⟨_, List.getElem?_set_self hlt, ?_⟩
      have hgone := ChannelBook.send_closed_iff d.server.book j.channel d.server.nextTicket m.text
      rw [hchannel] at hgone ⊢
      cases hsend : (d.server.book.send l.connection d.server.nextTicket m.text).1 with
      | queued =>
        have hopen : d.server.book.closed l.connection = false := by
          refine Bool.eq_false_iff.mpr fun hc => ?_
          rw [hgone.mpr hc] at hsend
          cases hsend
        exact .said m hm (fun _ => hlast) hopen rfl rfl
      | closed => exact .lost m hm (fun _ => hlast) (hgone.mp hsend) rfl rfl
      | waits => exact .waits m hm hticket hlast rfl rfl
    · have hne : l' ≠ l := fun heq => hik (h.answered.eq_of_origin (heq ▸ hl') hl)
      exact ⟨j, (List.getElem?_set_ne hik).trans hj, .same (heard_handed hne _)⟩

theorem Sound.advances_resumed (h : d.Sound config registry) (hs : d.server.step? (.resumed n) = some s)
    (hl : d.origins[k]? = some l) (hj : d.server.jobs[k]? = some j) :
    ∃ j', s.jobs[k]? = some j' ∧ d.Advances { d.note s (.resumed n) with server := s } (.resumed n) k l j j' := by
  obtain ⟨w, delivered, hw, hnote, hclosed, hjobs⟩ := h.resumed_waiter hs
  have hjob : s.jobs[k]? = some (if j.ticket? = some w.ticket then j.answered delivered else j) := by
    rw [hjobs, ChannelServer.answer, List.getElem?_map, hj]
    rfl
  rw [hnote]
  refine ⟨_, hjob, ?_⟩
  have hsaid := h.mirrored.said_answered (s := s) hw delivered
  split
  · rename_i hticket
    obtain ⟨horigin, hm⟩ := h.letter_of_job hw hj hticket
    rw [hl, Option.some.injEq] at horigin
    subst horigin
    cases delivered with
    | true => exact .said _ hm (fun hnone => by simp [hticket] at hnone) hclosed rfl hsaid
    | false => exact .lost _ hm (fun hnone => by simp [hticket] at hnone) hclosed rfl (heard_of_said hsaid _)
  · rename_i hticket
    have hne : w.letter ≠ l := fun heq => hticket (h.answered.ticket_of_job hl hj hw heq)
    refine .same ?_
    cases delivered with
    | true => exact (heard_append hsaid l).trans (if_neg hne)
    | false => exact heard_of_said hsaid l

theorem jobs_onConnection? {step : Connection → ChannelBook → Option (Connection × ChannelBook)} {s s' : ChannelServer}
    (h : s.onConnection? n step = some s') : s'.jobs = s.jobs := by
  obtain ⟨c, changed, -, -, rfl⟩ := ChannelServer.onConnection?_eq_some h
  rfl

theorem jobs_onConnection?_getD (step : Connection → ChannelBook → Option (Connection × ChannelBook))
    (s : ChannelServer) (n : Nat) : ((s.onConnection? n step).getD s).jobs = s.jobs := by
  cases h : s.onConnection? n step with
  | none => rfl
  | some s' => exact jobs_onConnection? h

/-- Only a job that retires is touched by a quiet step. -/
theorem jobs_quiet {s s' : ChannelServer} (h : s.step? e = some s') (he : e.isQuiet = true)
    (hretired : ∀ k, e ≠ .retired k) : s'.jobs = s.jobs := by
  cases e with
  | left n => exact jobs_onConnection? h
  | written n =>
    simp only [ChannelServer.step?, Option.ite_none_right_eq_some, Option.some.injEq] at h
    exact h.2 ▸ jobs_onConnection?_getD _ s n
  | writeFailed n =>
    simp only [ChannelServer.step?, Option.ite_none_right_eq_some, Option.some.injEq] at h
    exact h.2 ▸ jobs_onConnection?_getD _ s n
  | stopped n =>
    simp only [ChannelServer.step?, Option.ite_none_right_eq_some, Option.some.injEq] at h
    exact h.2 ▸ jobs_onConnection?_getD _ s n
  | retired k => exact absurd rfl (hretired k)
  | pinged =>
    cases h
    rfl
  | shutDown =>
    cases h
    rfl
  | closed conn =>
    cases h
    rfl
  | _ => cases he

theorem advances_retired (hs : d.server.step? (.retired i) = some s) (hj : d.server.jobs[k]? = some j) :
    ∃ j', s.jobs[k]? = some j' ∧ d.Advances { d with server := s } (.retired i) k l j j' := by
  simp only [ChannelServer.step?, ChannelServer.retire?] at hs
  cases hp : d.server.jobs[i]? with
  | none => simp [hp] at hs
  | some p =>
    simp only [hp] at hs
    obtain ⟨changed, hretire, rfl⟩ := Option.map_eq_some_iff.mp hs
    simp only [ChannelJob.retire?, Option.ite_none_right_eq_some, Option.some.injEq, Bool.and_eq_true] at hretire
    obtain ⟨⟨hreturned, -⟩, rfl⟩ := hretire
    by_cases hik : i = k
    · subst hik
      rw [hj] at hp
      cases hp
      exact ⟨_, List.getElem?_set_self (List.getElem?_eq_some_iff.mp hj).1,
        .stays ⟨rfl, rfl, rfl⟩ rfl rfl (fun _ => rfl) (fun _ => .inr (Phase.finishing_of_outcome? hreturned)) rfl⟩
    · exact ⟨j, (List.getElem?_set_ne hik).trans hj, .same rfl⟩

theorem Sound.advances (h : d.Sound config registry) (hs : d.step? e = some d') (hl : d.origins[k]? = some l)
    (hj : d.server.jobs[k]? = some j) : ∃ j', d'.server.jobs[k]? = some j' ∧ d.Advances d' e k l j j' := by
  obtain ⟨s, hstep, rfl⟩ := step?_eq_some hs
  have hquiet : e.isQuiet = true → (∀ k, e ≠ .retired k) → d.note s e = d →
      ∃ j', s.jobs[k]? = some j' ∧ d.Advances { d.note s e with server := s } e k l j j' := by
    intro he hretired hnote
    rw [hnote]
    exact ⟨j, (jobs_quiet hstep he hretired ▸ hj), .same rfl⟩
  cases e with
  | accepted conn =>
    obtain rfl := ChannelServer.step?_accepted hstep
    exact ⟨j, hj, .same rfl⟩
  | arrived n i =>
    obtain ⟨c, -, rfl⟩ := ChannelServer.step?_arrived hstep
    exact ⟨j, hj, .same rfl⟩
  | taken n =>
    obtain ⟨c, i, c', b, job, -, -, -, rfl⟩ := ChannelServer.step?_taken hstep
    exact ⟨j, (List.getElem?_append_left (List.getElem?_eq_some_iff.mp hj).1).trans hj, .same rfl⟩
  | refused n =>
    obtain ⟨c, m, hc, hreceiving, rfl⟩ := ChannelServer.step?_refused hstep
    have hloop := h.answered.loop n c hc
    rw [hreceiving] at hloop
    have hd : d.Declining (d.last n) m := hloop
    have hne : d.last n ≠ l := fun heq => hd.jobless (heq ▸ List.mem_of_getElem? hl)
    have hnote : ∀ s, d.note s (.refused n) = d.handed (d.last n) m
        (d.server.book.send c.channel d.server.nextTicket m.text).1 := by
      intro s
      simp only [note, hc, hreceiving]
    rw [hnote]
    exact ⟨j, hj, .same (heard_handed hne _)⟩
  | forwarded n =>
    refine ⟨j, (jobs_onConnection? (n := n) hstep) ▸ hj, .same ?_⟩
    simp only [note]
    split <;> rfl
  | sent i => exact h.advances_sent hstep hl hj
  | moved i move =>
    obtain ⟨p, hp, rfl⟩ := ChannelServer.step?_moved hstep
    by_cases hik : i = k
    · subst hik
      rw [hj] at hp
      cases hp
      exact ⟨_, List.getElem?_set_self (List.getElem?_eq_some_iff.mp hj).1, .moved move rfl rfl rfl⟩
    · exact ⟨j, (List.getElem?_set_ne hik).trans hj, .same rfl⟩
  | retired i => exact advances_retired hstep hj
  | resumed n => exact h.advances_resumed hstep hl hj
  | _ => exact hquiet rfl (by simp) rfl

/-! ## Jobs that are started -/

/-- A receive loop starts the job `k` for the letter `l`, the next one of its connection. -/
structure Starts (d : Docket) (e : ServerEvent) (k : Nat) (l : Letter) (j' : ChannelJob) : Prop where
  event : e = .taken l.connection
  place : k = d.server.jobs.length
  letter : l = d.next l.connection
  unreleased : j'.released = false
  ticket : j'.ticket? = none
  phase : ∃ text r, d.letter? l = some (.request text) ∧ Request.parse text = .ok r ∧
    j'.phase = Phase.start r d.server.config d.server.registry

theorem length_jobs {s s' : ChannelServer} (h : s.step? e = some s') (he : ∀ n, e ≠ .taken n) :
    s'.jobs.length = s.jobs.length := by
  have hquiet : e.isQuiet = true → s'.jobs.length = s.jobs.length := fun he => (ChannelServer.quiet_step h he).jobs
  cases e with
  | accepted conn => rw [ChannelServer.step?_accepted h, ChannelServer.accept]
  | arrived n i =>
    obtain ⟨c, -, rfl⟩ := ChannelServer.step?_arrived h
    rfl
  | taken n => exact absurd rfl (he n)
  | refused n =>
    obtain ⟨c, m, -, -, rfl⟩ := ChannelServer.step?_refused h
    rfl
  | forwarded n => rw [jobs_onConnection? (n := n) h]
  | sent i =>
    obtain ⟨p, m, -, -, -, ⟨-, -, rfl⟩ | ⟨-, rfl⟩⟩ := ChannelServer.step?_sent h
    · exact List.length_set
    · exact List.length_set
  | moved i move =>
    obtain ⟨p, -, rfl⟩ := ChannelServer.step?_moved h
    exact List.length_set
  | resumed n =>
    obtain ⟨o, ticket, delivered, o', -, -, rfl⟩ := ChannelServer.step?_resumed h
    exact List.length_map ..
  | _ => exact hquiet rfl

/-- Every job after a step was there before, or is started by the step. -/
theorem Sound.job_before (h : d.Sound config registry) (hs : d.step? e = some d')
    (hl : d'.origins[k]? = some l) (hj' : d'.server.jobs[k]? = some j') :
    (∃ j, d.origins[k]? = some l ∧ d.server.jobs[k]? = some j ∧ d.Advances d' e k l j j') ∨ d.Starts e k l j' := by
  rcases Nat.lt_or_ge k d.server.jobs.length with hlt | hge
  · have hj := List.getElem?_eq_getElem hlt
    obtain ⟨l₀, hl₀⟩ := h.wired.exists_origin hj
    have hsame := (extends_step hs).origin hl₀
    rw [hl] at hsame
    cases hsame
    obtain ⟨i, hi, hadvances⟩ := h.advances hs hl₀ hj
    rw [hj'] at hi
    cases hi
    exact .inl ⟨_, hl₀, hj, hadvances⟩
  · right
    obtain ⟨s, hstep, rfl⟩ := step?_eq_some hs
    have hlt : k < s.jobs.length := (List.getElem?_eq_some_iff.mp hj').1
    have htaken : ∃ n, e = .taken n := by
      by_contra hnot
      have hsame := length_jobs hstep fun n heq => hnot ⟨n, heq⟩
      omega
    obtain ⟨n, rfl⟩ := htaken
    obtain ⟨c, i, c', b, job, hc, -, htakes, hserver⟩ := ChannelServer.step?_taken hstep
    have ht := takes_note hserver htakes.next_inbound.2.2
    have hletter := (h.wired.next_letter hc htakes.next_inbound.1).1
    rw [ht.jobs, List.getElem?_append_right hge] at hj'
    rw [ht.origins, List.getElem?_append_right (h.wired.origins ▸ hge)] at hl
    obtain ⟨-, -, rfl⟩ := List.mem_map.mp (List.mem_of_getElem? hl)
    have hjob : job = some j' := by simpa using List.mem_of_getElem? hj'
    have hplace : k = d.server.jobs.length := by
      have hbound := (List.getElem?_eq_some_iff.mp hj').1
      rw [hjob, Option.toList_some, List.length_singleton] at hbound
      omega
    cases htakes with
    | started text rest r id b' next parsed begun =>
      cases hjob
      exact ⟨rfl, hplace, rfl, rfl, rfl, text, r, hletter, parsed, rfl⟩
    | _ => cases hjob

theorem Starts.said (h : d.Starts e k l j') (hs : d.step? e = some d') : d'.said = d.said := by
  obtain ⟨s, -, rfl⟩ := step?_eq_some hs
  rw [h.event]
  rfl

/-! ## What follows from a step of a job -/

theorem Advances.home (ha : d.Advances d' e k l j j') : j'.conn = j.conn ∧ j'.channel = j.channel ∧ j'.id = j.id := by
  cases ha with
  | stays home phase ticket kept gave heard => exact home
  | moved move event after heard => exact after ▸ ⟨rfl, rfl, rfl⟩
  | waits m message before last after heard => exact after ▸ ⟨rfl, rfl, rfl⟩
  | said m message last opened after said => exact after ▸ ⟨rfl, rfl, rfl⟩
  | lost m message last gone after heard => exact after ▸ ⟨rfl, rfl, rfl⟩

theorem Advances.released (ha : d.Advances d' e k l j j') (hreleased : j.released = true) : j'.released = true := by
  cases ha with
  | stays home phase ticket kept gave heard => exact kept hreleased
  | moved move event after heard => exact after ▸ hreleased
  | waits m message before last after heard => exact after ▸ hreleased
  | said m message last opened after said => exact after ▸ hreleased
  | lost m message last gone after heard => exact after ▸ hreleased

/-- Its client hears nothing, or the message that the job was to say. -/
theorem Advances.heard_cases (ha : d.Advances d' e k l j j') : d'.heard l = d.heard l ∨
    ∃ m, d'.said = d.said ++ [(l, m)] ∧ j.phase.message? = some m ∧ d.server.book.closed l.connection = false ∧
      (j.ticket? = none → m.isLast = true → j.released = true) ∧ j' = j.answered true := by
  cases ha with
  | stays home phase ticket kept gave heard => exact .inl heard
  | moved move event after heard => exact .inl heard
  | waits m message before last after heard => exact .inl heard
  | said m message last opened after said => exact .inr ⟨m, said, message, opened, last, after⟩
  | lost m message last gone after heard => exact .inl heard

/-- What is said in answer to the letter of a job, that job says. -/
theorem Advances.of_said (ha : d.Advances d' e k l j j') (hsaid : d'.said = d.said ++ [(l, m)]) :
    j.phase.message? = some m ∧ d.server.book.closed l.connection = false ∧
      (j.ticket? = none → m.isLast = true → j.released = true) ∧ j' = j.answered true := by
  rcases ha.heard_cases with hsame | ⟨m', hsaid', hfacts⟩
  · rw [(heard_append hsaid l).trans (if_pos rfl)] at hsame
    simp at hsame
  · rw [hsaid] at hsaid'
    cases List.append_cancel_left hsaid'
    exact hfacts

theorem Advances.settled (h : d.Sound config registry) (hj : d.server.jobs[k]? = some j) (hsettled : j.Settled)
    (ha : d.Advances d' e k l j j') : j'.Settled := by
  cases ha with
  | stays home phase ticket kept gave heard =>
    refine ⟨fun hreleased => ?_, fun hwaits m hm hlast => ?_⟩
    · rw [phase]
      exact (gave hreleased).elim hsettled.finishing id
    · rw [ticket] at hwaits
      rw [phase] at hm
      exact kept (hsettled.waits hwaits m hm hlast)
  | moved move event after heard =>
    subst after
    refine ⟨fun hreleased => ?_, fun hwaits m hm hlast => ?_⟩
    · have hfinishing := hsettled.finishing hreleased
      simp only [JobMove.phase_of_finishing hfinishing]
      exact hfinishing
    · obtain ⟨l, hl⟩ := h.wired.exists_origin hj
      obtain ⟨ticket, hticket⟩ := Option.ne_none_iff_exists'.mp hwaits
      obtain ⟨m', hm', -⟩ := (h.answered.job k j l hj hl).waits ticket hticket
      simp only [JobMove.phase_of_message hm'] at hm
      exact hsettled.waits hwaits m hm hlast
  | waits m message before last after heard =>
    subst after
    refine ⟨hsettled.finishing, fun _ m' hm' hlast => last ?_⟩
    rw [message] at hm'
    cases hm'
    exact hlast
  | said m message last opened after said =>
    subst after
    exact ⟨fun hreleased => Phase.finishing_answered (hsettled.finishing hreleased) true,
      fun hwaits => absurd rfl hwaits⟩
  | lost m message last gone after heard =>
    subst after
    exact ⟨fun hreleased => Phase.finishing_answered (hsettled.finishing hreleased) false,
      fun hwaits => absurd rfl hwaits⟩

end Docket
end FrameStream
