import FrameStream.Proofs.Channel.Advance
import FrameStream.Proofs.Channel.Flow

/-!
# One job after another

The jobs of a channel hold its slot one after another. While a job holds it, no other job of the channel has anything to
say but its last message; and a job that has given it back has nothing to say but that. So what a job says before its
last message goes before all that the jobs after it say.

The last message itself is said after the slot is given back. The next job may take the slot in between, and what it
says may go first. That is the only way: once the last message is in the queue, whoever takes the slot speaks later.
-/

namespace FrameStream

theorem Phase.message?_answered {p : Phase} (h : p.finishing = true) (delivered : Bool) :
    (p.answered delivered).message? = none := by
  cases p with
  | rejecting key e => rfl
  | reporting job e => cases delivered <;> rfl
  | failing d e => cases delivered <;> rfl
  | returned o => rfl
  | _ => cases h

theorem Outbound.Flow.closed {o o' : Outbound} {happened : Option ServerEvent} {n : ChannelNumber}
    (h : o.Flow happened n o') (hclosed : o.closed = true) : o'.closed = true := by
  cases h with
  | calm _ calm => exact calm.closed hclosed
  | queued text opened room => exact hclosed
  | waits ticket text => exact hclosed
  | resumed _ ticket delivered event resume =>
    obtain ⟨text, rest, -, ⟨-, -, rfl⟩ | ⟨-, -, -, rfl⟩⟩ := Outbound.resume?_eq_some.mp resume
    · exact hclosed
    · exact hclosed
  | taken _ f event take =>
    obtain ⟨rest, -, rfl⟩ := Outbound.take?_eq_some.mp take
    exact hclosed

namespace Docket

/-- After `x` was said, `y` may be said: a job that was started before the one that said `x`, on the same channel, says
nothing but its last message. -/
def InTurn (origins : List Letter) (x y : Letter × Message) : Prop :=
  ∀ i k : Nat, origins[i]? = some y.1 → origins[k]? = some x.1 → i < k → x.1.connection = y.1.connection →
    y.2.isLast = true

/-- Jobs hold the slots of channels one after another, and speak in this order. -/
structure Orderly (d : Docket) (config : ServiceConfig) (registry : Registry) : Prop where
  sound : d.Sound config registry
  housed : d.server.Housed
  settled : ∀ (k : Nat) (j : ChannelJob), d.server.jobs[k]? = some j → j.Settled
  /-- Whoever has said its last message has given back the slot. -/
  spent : ∀ (k : Nat) (j : ChannelJob) (l : Letter) (m : Message), d.server.jobs[k]? = some j →
    d.origins[k]? = some l → m ∈ d.heard l → m.isLast = true → j.released = true
  order : d.said.Pairwise (InTurn d.origins)

variable {d d' : Docket} {s : ChannelServer} {l l' : Letter} {j j' : ChannelJob} {m : Message} {n k i p : Nat}
  {config : ServiceConfig} {registry : Registry} {depth : Nat} {e : ServerEvent} {es : List ServerEvent}

theorem orderly_start (config : ServiceConfig) (registry : Registry) (depth : Nat) :
    (start config registry depth).Orderly config registry where
  sound := sound_start config registry depth
  housed := ChannelBook.houses_nil depth
  settled _ _ h := nomatch h
  spent _ _ _ _ h := nomatch h
  order := List.Pairwise.nil

theorem mem_heard (h : (l, m) ∈ d.said) : m ∈ d.heard l :=
  List.mem_map.mpr ⟨(l, m), List.mem_filter.mpr ⟨h, by simp⟩, rfl⟩

theorem mem_said (h : m ∈ d.heard l) : (l, m) ∈ d.said := by
  obtain ⟨⟨l', m'⟩, hmem, rfl⟩ := List.mem_map.mp h
  obtain ⟨hsaid, hl⟩ := List.mem_filter.mp hmem
  exact of_decide_eq_true hl ▸ hsaid

/-- Of two jobs on an open channel the earlier one has given back the slot. -/
theorem Orderly.released_of_later (h : d.Orderly config registry) {u : ChannelJob} (hik : i < k)
    (hj : d.server.jobs[i]? = some j) (hu : d.server.jobs[k]? = some u) (hsame : j.channel = u.channel)
    (hopen : d.server.book.closed j.channel = false) : j.released = true := by
  have hi : d.server.tenants[i]? = some j.tenant := by simp [ChannelServer.tenants, hj]
  have hk : d.server.tenants[k]? = some u.tenant := by simp [ChannelServer.tenants, hu]
  exact (h.housed.order i k j.tenant u.tenant hik hi hk).2 hsame hopen

/-- Ids are given in the order in which jobs are started. -/
theorem Orderly.lt_of_id (h : d.Orderly config registry) {u : ChannelJob} (hj : d.server.jobs[i]? = some j)
    (hu : d.server.jobs[k]? = some u) (hid : j.id < u.id) : i < k := by
  have hi : d.server.tenants[i]? = some j.tenant := by simp [ChannelServer.tenants, hj]
  have hk : d.server.tenants[k]? = some u.tenant := by simp [ChannelServer.tenants, hu]
  rcases Nat.lt_trichotomy i k with hlt | rfl | hgt
  · exact hlt
  · rw [hj] at hu
    cases hu
    exact absurd hid (Nat.lt_irrefl _)
  · exact absurd hid (Nat.lt_asymm (h.housed.order k i u.tenant j.tenant hgt hk hi).1)

/-- A job that holds a slot has not given it back. -/
theorem Orderly.exists_holding (h : d.Orderly config registry) {conn : String} {a : ActiveJob}
    (ha : d.server.book.holder? conn = some a) :
    ∃ (k : Nat) (j : ChannelJob), d.server.jobs[k]? = some j ∧ j.conn = conn ∧ j.id = a.id ∧ j.released = false := by
  obtain ⟨t, ht, hconn, hid, hheld⟩ := h.housed.holder conn a ha
  obtain ⟨j, hj, rfl⟩ := List.mem_map.mp ht
  obtain ⟨k, hk⟩ := List.mem_iff_getElem?.mp hj
  exact ⟨k, j, hk, hconn, hid, hheld⟩

theorem Orderly.eq_of_id (h : d.Orderly config registry) {u : ChannelJob} (hj : d.server.jobs[i]? = some j)
    (hu : d.server.jobs[k]? = some u) (hid : j.id = u.id) : i = k :=
  h.housed.eq_of_id (t := j.tenant) (u := u.tenant) (by simp [ChannelServer.tenants, hj])
    (by simp [ChannelServer.tenants, hu]) hid

/-! ## One step -/

/-- What was said before a step was said by jobs that were there before. -/
theorem Sound.origin_of_said (h : d.Sound config registry) (h' : d'.Sound config registry) (hs : d.step? e = some d')
    (hsaid : (l, m) ∈ d.said) (hl : d'.origins[k]? = some l) : d.origins[k]? = some l := by
  obtain ⟨j', hj', -⟩ := h'.answered.exists_job h'.wired hl
  rcases h.job_before hs hl hj' with ⟨j, hold, -⟩ | hstarts
  · exact hold
  · have hmem := mem_heard hsaid
    rw [h.silent_of_next hstarts.letter] at hmem
    cases hmem

/-- Who speaks while a later job of the channel has spoken says its last message. -/
theorem Orderly.isLast_of_said (h : d.Orderly config registry) (hs : d.step? e = some d')
    (h' : d'.Sound config registry) (hsaid : d'.said = d.said ++ [(l, m)]) (hl : d'.origins[i]? = some l)
    (hl' : d.origins[k]? = some l') (hik : i < k) (hsame : l'.connection = l.connection) : m.isLast = true := by
  obtain ⟨j', hj', -⟩ := h'.answered.exists_job h'.wired hl
  obtain ⟨u, hu, hstands⟩ := h.sound.answered.exists_job h.sound.wired hl'
  rcases h.sound.job_before hs hl hj' with ⟨j, hl, hj, hadvances⟩ | hstarts
  · obtain ⟨hm, hopen, -⟩ := hadvances.of_said hsaid
    have hchannel := (h.sound.answered.job i j l hj hl).channel
    have hreleased := h.released_of_later hik hj hu (hchannel.trans (hsame.symm.trans hstands.channel.symm))
      (hchannel ▸ hopen)
    rw [h.sound.isLast_eq hj hm]
    exact (h.settled i j hj).finishing hreleased
  · rw [hstarts.said hs] at hsaid
    simp at hsaid

theorem Orderly.step (h : d.Orderly config registry) (hs : d.step? e = some d') : d'.Orderly config registry := by
  have hsound := h.sound.step hs
  refine ⟨hsound, ?_, fun k j' hj' => ?_, fun k j' l m hj' hl hm hlast => ?_, ?_⟩
  · obtain ⟨s, hstep, rfl⟩ := step?_eq_some hs
    exact housed_step h.housed h.sound.wired hstep
  · obtain ⟨l, hl⟩ := hsound.wired.exists_origin hj'
    rcases h.sound.job_before hs hl hj' with ⟨j, -, hj, hadvances⟩ | hstarts
    · exact hadvances.settled h.sound hj (h.settled k j hj)
    · refine ⟨fun hreleased => ?_, fun hwaits => absurd hstarts.ticket hwaits⟩
      rw [hstarts.unreleased] at hreleased
      cases hreleased
  · rcases h.sound.job_before hs hl hj' with ⟨j, hl, hj, hadvances⟩ | hstarts
    · refine hadvances.released ?_
      rcases hadvances.heard_cases with hsame | ⟨m', hsaid, hm', -, hfirst, -⟩
      · exact h.spent k j l m hj hl (hsame ▸ hm) hlast
      · rw [(heard_append hsaid l).trans (if_pos rfl)] at hm
        rcases List.mem_append.mp hm with hm | hm
        · exact h.spent k j l m hj hl hm hlast
        · obtain rfl := List.mem_singleton.mp hm
          exact (h.settled k j hj).last_released hm' hfirst hlast
    · rw [heard_of_said (hstarts.said hs), h.sound.silent_of_next hstarts.letter] at hm
      cases hm
  · have hold : d.said.Pairwise (InTurn d'.origins) := by
      refine h.order.imp_of_mem fun {x y} hx hy hxy i k hi hk => ?_
      exact hxy i k (h.sound.origin_of_said hsound hs hy hi) (h.sound.origin_of_said hsound hs hx hk)
    rcases h.sound.said_step hs with hsame | ⟨l, m, hsaid, -⟩
    · rw [hsame]
      exact hold
    · rw [hsaid]
      refine List.pairwise_append.mpr ⟨hold, List.pairwise_singleton _ _, fun x hx y hy i k hi hk hik hsame => ?_⟩
      obtain rfl := List.mem_singleton.mp hy
      exact h.isLast_of_said hs hsound hsaid hi (h.sound.origin_of_said hsound hs hx hk) hik hsame

/-! ## Every run -/

theorem orderly_run (h : d.Orderly config registry) (hes : d.run? es = some d') : d'.Orderly config registry :=
  run_keeps (P := fun u => u.Orderly config registry) (fun hu hs => hu.step hs) h hes

theorem extends_run (hes : d.run? es = some d') : d.Extends d' :=
  run_keeps (P := d.Extends) (fun h hs => h.trans (extends_step hs)) (.refl d) hes

/-- A job keeps its id, its channel and what it gave back. -/
theorem Sound.job_run (h : d.Sound config registry) (hes : d.run? es = some d') (hj : d.server.jobs[k]? = some j) :
    ∃ j', d'.server.jobs[k]? = some j' ∧ (j'.conn = j.conn ∧ j'.channel = j.channel ∧ j'.id = j.id) ∧
      (j.released = true → j'.released = true) := by
  refine (run_keeps (P := fun u => u.Sound config registry ∧ ∃ i, u.server.jobs[k]? = some i ∧
    (i.conn = j.conn ∧ i.channel = j.channel ∧ i.id = j.id) ∧ (j.released = true → i.released = true)) ?_
    ⟨h, j, hj, ⟨rfl, rfl, rfl⟩, id⟩ hes).2
  rintro u u' e ⟨hu, i, hi, ⟨hconn, hchannel, hid⟩, hreleased⟩ hs
  obtain ⟨l, hl⟩ := hu.wired.exists_origin hi
  obtain ⟨i', hi', hadvances⟩ := hu.advances hs hl hi
  obtain ⟨hconn', hchannel', hid'⟩ := hadvances.home
  exact ⟨hu.step hs, i', hi', ⟨hconn'.trans hconn, hchannel'.trans hchannel, hid'.trans hid⟩,
    fun hgiven => hadvances.released (hreleased hgiven)⟩

/-! ## What is said later -/

theorem closed_step (h : d.Wired) (hs : d.step? e = some d') (hn : n < d.server.connections.length)
    (hclosed : d.server.book.closed n = true) : d'.server.book.closed n = true := by
  obtain ⟨s, hstep, rfl⟩ := step?_eq_some hs
  have ho := List.getElem?_eq_getElem (h.channels.symm ▸ hn : n < d.server.book.channels.length)
  obtain ⟨o', ho', hflow⟩ := (h.flow hstep).queue ho
  simp only [ChannelBook.closed, ChannelBook.channel?, ho, ho'] at hclosed ⊢
  exact hflow.closed hclosed

/-- What is said for the first time after a step was said in it, on an open channel. -/
theorem Sound.said_of_lt (h : d.Sound config registry) (hs : d.step? e = some d') (hlt : p < d'.said.length)
    (hle : d.said.length ≤ p) (hp : d'.said[p]? = some (l, m)) :
    d'.said = d.said ++ [(l, m)] ∧ d.server.book.closed l.connection = false := by
  rcases h.said_step hs with hsame | ⟨l', m', hsaid, hopen⟩
  · rw [hsame] at hlt
    exact absurd hlt (Nat.not_lt.mpr hle)
  · rw [hsaid, List.getElem?_append_right hle] at hp
    obtain ⟨rfl, rfl⟩ := Prod.mk.inj (List.mem_singleton.mp (List.mem_of_getElem? hp))
    exact ⟨hsaid, hopen⟩

theorem Extends.said_of_lt (h : d.Extends d') (hlt : p < d.said.length) : d.said[p]? = d'.said[p]? := by
  obtain ⟨more, hmore⟩ := h.said
  rw [← hmore, List.getElem?_append_left hlt]

/-- What is said in answer to a letter of which nothing was heard is said later. -/
theorem Extends.le_of_silent (h : d.Extends d') (hsilent : d.heard l = []) (hp : d'.said[p]? = some (l, m)) :
    d.said.length ≤ p := by
  refine Nat.le_of_not_lt fun hlt => ?_
  have hmem := mem_heard (List.mem_of_getElem? ((h.said_of_lt hlt).trans hp))
  rw [hsilent] at hmem
  cases hmem

/-- The step in which something is said. -/
theorem Sound.exists_saying (h : d.Sound config registry) (hes : d.run? es = some d') (hp : d'.said[p]? = some (l, m))
    (hle : d.said.length ≤ p) : ∃ fs e d₀ d₁, d.run? fs = some d₀ ∧ d₀.step? e = some d₁ ∧
      d₁.said = d₀.said ++ [(l, m)] ∧ d₀.server.book.closed l.connection = false := by
  obtain ⟨fs, e, gs, d₀, d₁, -, hfs, hs, hgs, hle₀, hlt⟩ :=
    exists_crossing (P := fun u => p < u.said.length) hes (Nat.not_lt.mpr hle) (List.getElem?_eq_some_iff.mp hp).1
  exact ⟨fs, e, d₀, d₁, hfs, hs, (sound_run h hfs).said_of_lt hs hlt (Nat.le_of_not_lt hle₀)
    (((extends_run hgs).said_of_lt hlt).trans hp)⟩

/-- A channel on which something is said later is open now. -/
theorem Sound.open_of_said (h : d.Sound config registry) (hes : d.run? es = some d')
    (hl : l.place < d.taken l.connection) (hp : d'.said[p]? = some (l, m)) (hle : d.said.length ≤ p) :
    d.server.book.closed l.connection = false := by
  obtain ⟨fs, e, d₀, d₁, hfs, -, -, hopen⟩ := h.exists_saying hes hp hle
  refine Bool.eq_false_iff.mpr fun hclosed => ?_
  have hstays := (run_keeps (P := fun u => (u.Sound config registry ∧ l.place < u.taken l.connection) ∧
    u.server.book.closed l.connection = true) ?_ ⟨⟨h, hl⟩, hclosed⟩ hfs).2
  · rw [hopen] at hstays
    cases hstays
  · rintro u u' e ⟨⟨hu, hl⟩, hclosed⟩ hs
    exact ⟨⟨hu.step hs, Nat.lt_of_lt_of_le hl ((extends_step hs).taken _)⟩,
      closed_step hu.wired hs (hu.wired.connected hl) hclosed⟩

/-- So is one on which something is heard for the first time. -/
theorem Sound.open_of_heard (h : d.Sound config registry) (hes : d.run? es = some d')
    (htaken : l.place < d.taken l.connection) (hsilent : d.heard l = []) (hm : m ∈ d'.heard l) :
    d.server.book.closed l.connection = false := by
  obtain ⟨p, hp⟩ := List.mem_iff_getElem?.mp (mem_said hm)
  exact h.open_of_said hes htaken hp ((extends_run hes).le_of_silent hsilent hp)

/-- A job with nothing left to do but to say its last message has that to say or nothing. -/
theorem Advances.message_of_finishing (ha : d.Advances d' e k l j j') (hfinishing : j.phase.finishing = true) :
    j'.phase.message? = j.phase.message? ∨ j'.phase.message? = none := by
  cases ha with
  | stays home phase ticket kept gave heard => exact .inl (congrArg Phase.message? phase)
  | moved move event after heard =>
    subst after
    exact .inl (congrArg Phase.message? (JobMove.phase_of_finishing hfinishing))
  | waits m' message before last after heard =>
    subst after
    exact .inl rfl
  | said m' message last opened after said =>
    subst after
    exact .inr (Phase.message?_answered hfinishing true)
  | lost m' message last gone after heard =>
    subst after
    exact .inr (Phase.message?_answered hfinishing false)

/-- A job that has given back its slot has the same to say later, or nothing. -/
theorem Orderly.message_run (h : d.Orderly config registry) (hes : d.run? es = some d')
    (hj : d.server.jobs[k]? = some j) (hreleased : j.released = true) : ∃ j', d'.server.jobs[k]? = some j' ∧
      (j'.phase.message? = j.phase.message? ∨ j'.phase.message? = none) ∧ j'.released = true := by
  refine (run_keeps (P := fun u => u.Orderly config registry ∧ ∃ i, u.server.jobs[k]? = some i ∧
    (i.phase.message? = j.phase.message? ∨ i.phase.message? = none) ∧ i.released = true) ?_
    ⟨h, j, hj, .inl rfl, hreleased⟩ hes).2
  rintro u u' e ⟨hu, i, hi, hmessage, hreleased⟩ hs
  obtain ⟨l, hl⟩ := hu.sound.wired.exists_origin hi
  obtain ⟨i', hi', hadvances⟩ := hu.sound.advances hs hl hi
  refine ⟨hu.step hs, i', hi', ?_, hadvances.released hreleased⟩
  rcases hadvances.message_of_finishing ((hu.settled k i hi).finishing hreleased) with hsame | hnone
  · rw [hsame]
    exact hmessage
  · exact .inr hnone

/-- A job that has given back its slot, and says something later, is about to say it. -/
theorem Orderly.message_of_said (h : d.Orderly config registry) (hes : d.run? es = some d')
    (hl : d.origins[k]? = some l) (hj : d.server.jobs[k]? = some j) (hreleased : j.released = true)
    (hp : d'.said[p]? = some (l, m)) (hle : d.said.length ≤ p) : j.phase.message? = some m := by
  obtain ⟨fs, e, d₀, d₁, hfs, hs, hsaid, -⟩ := h.sound.exists_saying hes hp hle
  obtain ⟨i, hi, hmessage, -⟩ := h.message_run hfs hj hreleased
  obtain ⟨i', -, hadvances⟩ := (orderly_run h hfs).sound.advances hs ((extends_run hfs).origin hl) hi
  rw [(hadvances.of_said hsaid).1] at hmessage
  exact (hmessage.resolve_right (Option.some_ne_none m)).symm

/-- When a job was started, and by whom. -/
theorem Sound.exists_start (h : d.Sound config registry) (hes : d.run? es = some d') (hl : d'.origins[k]? = some l)
    (hle : d.server.jobs.length ≤ k) :
    ∃ fs gs d₀ d₁, es = fs ++ .taken l.connection :: gs ∧ d.run? fs = some d₀ ∧
      d₀.step? (.taken l.connection) = some d₁ ∧ d₁.run? gs = some d' ∧ d₀.server.jobs.length = k ∧
      l = d₀.next l.connection ∧ k < d₁.server.jobs.length := by
  have hlt : k < d'.server.jobs.length := (sound_run h hes).wired.origins ▸ (List.getElem?_eq_some_iff.mp hl).1
  obtain ⟨fs, e, gs, d₀, d₁, rfl, hfs, hs, hgs, hle₀, hlt₁⟩ :=
    exists_crossing (P := fun u => k < u.server.jobs.length) hes (Nat.not_lt.mpr hle) hlt
  have h₀ := sound_run h hfs
  have hj := List.getElem?_eq_getElem hlt₁
  obtain ⟨l₁, hl₁⟩ := (h₀.step hs).wired.exists_origin hj
  obtain rfl : l = l₁ := Option.some.inj (hl.symm.trans ((extends_run hgs).origin hl₁))
  rcases h₀.job_before hs hl₁ hj with ⟨j, -, hold, -⟩ | hstarts
  · exact absurd (List.getElem?_eq_some_iff.mp hold).1 hle₀
  · have hevent := hstarts.event
    subst hevent
    exact ⟨fs, gs, d₀, d₁, rfl, hfs, hs, hgs, hstarts.place.symm, hstarts.letter, hlt₁⟩

/-- Two jobs do not say the same thing at once. -/
theorem Orderly.said_apart {la lb : Letter} {m' : Message} {q : Nat} (h : d.Orderly config registry)
    (hla : d.origins[i]? = some la) (hlb : d.origins[k]? = some lb) (hik : i < k) (hp : d.said[p]? = some (la, m))
    (hq : d.said[q]? = some (lb, m')) : p < q ∨ q < p := by
  refine Nat.lt_or_gt_of_ne fun hpq => ?_
  subst hpq
  rw [hp] at hq
  cases hq
  exact absurd (h.sound.answered.eq_of_origin hla hlb) (Nat.ne_of_lt hik)

/-! ## What is read -/

/-- A forwarding loop takes the first frame of its queue, if it takes any. -/
theorem forwarded_step (h : d.Wired) (hs : d.step? e = some d') (n : Nat) : d'.forwarded n = d.forwarded n ∨
    ∃ o f rest, d.server.book.channels[n]? = some o ∧ o.queued = f :: rest ∧
      d'.server.book.channels[n]? = some { o with queued := rest } := by
  obtain ⟨s, hstep, rfl⟩ := step?_eq_some hs
  by_cases he : ∃ m, e = .forwarded m
  · obtain ⟨m, rfl⟩ := he
    obtain ⟨c, hc, -, ⟨f, o, o', ho, htake, rfl⟩ | ⟨hnone, rfl⟩⟩ := ChannelServer.step?_forwarded hstep
    · have hchannel := h.channel m c hc
      obtain ⟨rest, hqueued, rfl⟩ := Outbound.take?_eq_some.mp htake
      by_cases hm : m = n
      · subst hm
        rw [hchannel] at ho ⊢
        exact .inr ⟨o, f, rest, ho, hqueued, ChannelBook.modify_self ho⟩
      · refine .inl ?_
        simp only [note, hc, Option.bind_some, ChannelBook.take?, ChannelBook.channel?, ho, htake]
        exact Function.update_of_ne (Ne.symm hm) ..
    · refine .inl ?_
      simp [note, hc, hnone]
  · exact .inl (congrFun ((d.note_keeps s e).2 fun m hm => he ⟨m, hm⟩) n)

/-- What was read from a queue is what was said on its channel first. -/
theorem read_of_said (hes : (start config registry depth).run? es = some d) (n : ChannelNumber) :
    (d.forwarded n).filterMap OutFrame.text? <+: (d.saidOn n).map Message.text := by
  refine (run_keeps (P := fun u => (u.Sound config registry ∧ u.server.book.Idle) ∧
    ∀ n, (u.forwarded n).filterMap OutFrame.text? <+: (u.saidOn n).map Message.text) ?_
    ⟨⟨sound_start config registry depth, fun _ _ ho => nomatch ho⟩, fun _ => List.prefix_rfl⟩ hes).2 n
  rintro u u' e ⟨⟨hu, hidle⟩, hread⟩ hs
  have hidle' : u'.server.book.Idle := by
    obtain ⟨s, hstep, rfl⟩ := step?_eq_some hs
    exact (hu.wired.flow hstep).idle hidle
  refine ⟨⟨hu.step hs, hidle'⟩, fun n => ?_⟩
  rcases forwarded_step hu.wired hs n with hsame | ⟨o, f, rest, ho, hqueued, ho'⟩
  · rw [hsame]
    exact (hread n).trans (((extends_step hs).saidOn n).map _)
  · have hreceiving : o.receiving = true := by
      refine Bool.of_not_eq_false fun hr => ?_
      rw [hidle n o ho hr] at hqueued
      cases hqueued
    rw [← (hu.step hs).mirrored.said n _ ho' hreceiving]
    exact List.prefix_append _ _

end Docket

namespace ChannelBook

theorem beginJob_eq_busy {b : ChannelBook} {conn key active : String}
    (h : b.beginJob conn key = .error (.busy active)) : ∃ a, b.holder? conn = some a ∧ a.key = active := by
  unfold beginJob at h
  cases he : b.entries.get? conn with
  | none => simp [he] at h
  | some e =>
    cases ha : e.active with
    | none => simp [he, ha] at h
    | some a => exact ⟨a, by simp [holder?, he, ha], by simpa [he, ha] using h⟩

end ChannelBook

open Docket

/-- The slot of a channel around the last message of a job. What is read from the queue of a channel got into it before,
and as long as somebody reads, what got in and was not read is still there. Once the last message of a job got into the
queue, the job never holds the slot again; a request that is refused because the slot is taken is refused because of
another job, which has not given it back. What a job says before its last message gets into the queue before all that a
later job on the channel says. -/
theorem slot_given_back_first (config : ServiceConfig) (registry : Registry) (depth : Nat) {es : List ServerEvent}
    {d : Docket} (hes : (start config registry depth).run? es = some d) :
    (∀ n : ChannelNumber, (d.forwarded n).filterMap OutFrame.text? <+: (d.saidOn n).map Message.text) ∧
    (∀ (n : ChannelNumber) (o : Outbound), d.server.book.channels[n]? = some o → o.receiving = true →
      (d.forwarded n).filterMap OutFrame.text? ++ o.texts = (d.saidOn n).map Message.text) ∧
    (∀ (k : Nat) (j : ChannelJob) (l : Letter) (m : Message), d.server.jobs[k]? = some j → d.origins[k]? = some l →
      m ∈ d.heard l → m.isLast = true → ∀ fs d', d.run? fs = some d' →
        (∀ conn a, d'.server.book.holder? conn = some a → a.id ≠ j.id) ∧
        ∀ conn key active, d'.server.book.beginJob conn key = .error (.busy active) →
          ∃ (i : Nat) (u : ChannelJob), d'.server.jobs[i]? = some u ∧ i ≠ k ∧ u.conn = conn ∧ u.released = false ∧
            d'.server.book.holder? conn = some ⟨u.id, active⟩) ∧
    (∀ (i k p q : Nat) (a b : ChannelJob) (la lb : Letter) (m m' : Message), d.server.jobs[i]? = some a →
      d.server.jobs[k]? = some b → a.id < b.id → a.channel = b.channel → d.origins[i]? = some la →
      d.origins[k]? = some lb → d.said[p]? = some (la, m) → d.said[q]? = some (lb, m') → m.isLast = false → p < q) := by
  have horderly := orderly_run (orderly_start config registry depth) hes
  refine ⟨read_of_said hes, horderly.sound.mirrored.said, fun k j l m hj hl hm hlast fs d' hfs => ?_,
    fun i k p q a b la lb m m' ha hb hid hsame hla hlb hp hq hlast => ?_⟩
  · have horderly' := orderly_run horderly hfs
    obtain ⟨j', hj', ⟨-, -, hid⟩, hkept⟩ := horderly.sound.job_run hfs hj
    have hreleased := hkept (horderly.spent k j l m hj hl hm hlast)
    have hother : ∀ {i u}, d'.server.jobs[i]? = some u → u.released = false → i ≠ k := by
      rintro i u hu hheld rfl
      rw [hj'] at hu
      cases hu
      rw [hreleased] at hheld
      cases hheld
    refine ⟨fun conn a ha heq => ?_, fun conn key active hbusy => ?_⟩
    · obtain ⟨i, u, hu, -, hsame, hheld⟩ := horderly'.exists_holding ha
      exact hother hu hheld (horderly'.eq_of_id hu hj' (hsame.trans (heq.trans hid.symm)))
    · obtain ⟨a, ha, rfl⟩ := ChannelBook.beginJob_eq_busy hbusy
      obtain ⟨i, u, hu, hconn, hsame, hheld⟩ := horderly'.exists_holding ha
      exact ⟨i, u, hu, hother hu hheld, hconn, hheld, by rw [ha, hsame]⟩
  · have hik := horderly.lt_of_id ha hb hid
    have hchannel := (horderly.sound.answered.job i a la ha hla).channel
    have hchannel' := (horderly.sound.answered.job k b lb hb hlb).channel
    have hconnection : lb.connection = la.connection := hchannel'.symm.trans (hsame.symm.trans hchannel)
    rcases horderly.said_apart hla hlb hik hp hq with hlt | hgt
    · exact hlt
    · obtain ⟨hplt, hpm⟩ := List.getElem?_eq_some_iff.mp hp
      obtain ⟨hqlt, hqm⟩ := List.getElem?_eq_some_iff.mp hq
      have hturn := List.pairwise_iff_getElem.mp horderly.order q p hqlt hplt hgt
      rw [hpm, hqm] at hturn
      have hended := hturn i k hla hlb hik hconnection
      rw [hlast] at hended
      cases hended

/-- Two requests on one channel. The resource of the first cannot be opened; its job gives back the slot, and before the
job says so, the second request is accepted. -/
def overtaking : List ServerEvent := [
  .accepted "c",
  .arrived 0 (.request (Bytes.ofText "\x7b\"key\":\"a\",\"resource\":\"r\"\x7d")),
  .arrived 0 (.request (Bytes.ofText "\x7b\"key\":\"b\",\"resource\":\"r\"\x7d")),
  .taken 0, .sent 0, .moved 0 (.opened (.error (.internal "lost"))), .sent 0, .taken 0, .sent 1, .sent 0]

theorem run_overtaking : ∃ d a b reason, (start {} Registry.builtins 4).run? overtaking = some d ∧
    d.server.jobs[0]? = some a ∧ d.server.jobs[1]? = some b ∧ (a.id = 1 ∧ b.id = 2) ∧ a.channel = b.channel ∧
    d.origins[0]? = some ⟨0, 0⟩ ∧ d.origins[1]? = some ⟨0, 1⟩ ∧
    d.said = [(⟨0, 0⟩, .accepted "a"), (⟨0, 1⟩, .accepted "b"), (⟨0, 0⟩, .error "a" reason)] :=
  ⟨_, _, _, _, rfl, rfl, rfl, ⟨rfl, rfl⟩, rfl, rfl, rfl, rfl⟩

/-- The acknowledgment of the first request goes before that of the second, and after its last message the slot is
held by another job. -/
theorem slot_given_back_first_overtaken :
    ∃ d, (start {} Registry.builtins 4).run? overtaking = some d ∧
      d.said.map (·.1) = [⟨0, 0⟩, ⟨0, 1⟩, ⟨0, 0⟩] ∧ (0 : Nat) < 1 ∧
      ∀ conn a, d.server.book.holder? conn = some a → a.id ≠ 1 := by
  obtain ⟨d, a, b, reason, hes, ha, hb, hid, hchannel, hla, hlb, hsaid⟩ := run_overtaking
  obtain ⟨-, -, hslot, horder⟩ := slot_given_back_first {} Registry.builtins 4 hes
  have hfirst := horder 0 1 0 1 a b ⟨0, 0⟩ ⟨0, 1⟩ _ _ ha hb (by rw [hid.1, hid.2]; decide) hchannel hla hlb
    (by rw [hsaid]; rfl) (by rw [hsaid]; rfl) rfl
  have hlast : Message.error "a" reason ∈ d.heard ⟨0, 0⟩ := by simp [heard, hsaid]
  obtain ⟨hfree, -⟩ := hslot 0 a ⟨0, 0⟩ _ ha hla hlast rfl [] d rfl
  exact ⟨d, hes, by rw [hsaid]; rfl, hfirst, fun conn a ha => hid.1 ▸ hfree conn a ha⟩

/-- The last message of a job may be overtaken by the acknowledgment of the next one. -/
theorem last_message_overtaken : ¬ ∀ (es : List ServerEvent) (d : Docket) (i k p q : Nat) (a b : ChannelJob)
    (la lb : Letter) (m : Message) (key : String), (start {} Registry.builtins 4).run? es = some d →
    d.server.jobs[i]? = some a → d.server.jobs[k]? = some b → a.id < b.id → a.channel = b.channel →
    d.origins[i]? = some la → d.origins[k]? = some lb → d.said[p]? = some (la, m) → m.isLast = true →
    d.said[q]? = some (lb, .accepted key) → p < q := by
  intro hclaim
  obtain ⟨d, a, b, reason, hes, ha, hb, hid, hchannel, hla, hlb, hsaid⟩ := run_overtaking
  have hfirst := hclaim overtaking d 0 1 2 1 a b ⟨0, 0⟩ ⟨0, 1⟩ _ "b" hes ha hb (by rw [hid.1, hid.2]; decide) hchannel
    hla hlb (by rw [hsaid]; rfl) rfl (by rw [hsaid]; rfl)
  exact absurd hfirst (by decide)

/-- What a job says, its last message included, gets into the queue before all that a later job on the channel says,
unless the later job was started when the earlier one had given back the slot and had yet to hand over that message. -/
theorem last_message_first_unless_pending {es : List ServerEvent} {d : Docket} {config : ServiceConfig}
    {registry : Registry} {depth i k p q : Nat} {a b : ChannelJob} {la lb : Letter} {m m' : Message}
    (hes : (start config registry depth).run? es = some d) (ha : d.server.jobs[i]? = some a)
    (hb : d.server.jobs[k]? = some b) (hid : a.id < b.id) (hsame : a.channel = b.channel)
    (hla : d.origins[i]? = some la) (hlb : d.origins[k]? = some lb) (hp : d.said[p]? = some (la, m))
    (hq : d.said[q]? = some (lb, m')) :
    p < q ∨ ∃ fs gs d₀ a₀, es = fs ++ .taken lb.connection :: gs ∧ (start config registry depth).run? fs = some d₀ ∧
      d₀.server.jobs.length = k ∧ d₀.server.jobs[i]? = some a₀ ∧ a₀.released = true ∧
      a₀.phase.message? = some m ∧ d₀.said.length ≤ p := by
  have hstart := orderly_start config registry depth
  have horderly := orderly_run hstart hes
  have hik := horderly.lt_of_id ha hb hid
  have hchannel := (horderly.sound.answered.job i a la ha hla).channel
  rcases horderly.said_apart hla hlb hik hp hq with hlt | hgt
  · exact .inl hlt
  · right
    obtain ⟨fs, gs, d₀, d₁, rfl, hfs, hstep, hgs, hk, hletter, hk₁⟩ :=
      hstart.sound.exists_start hes hlb (Nat.zero_le _)
    have h₀ := orderly_run hstart hfs
    have h₁ := h₀.step hstep
    have hextends := (extends_step hstep).trans (extends_run hgs)
    -- The later job has said nothing when it is started.
    have hle := hextends.le_of_silent (h₀.sound.silent_of_next hletter) hq
    have hsaid : d₁.said = d₀.said := by
      obtain ⟨s, -, rfl⟩ := step?_eq_some hstep
      rfl
    -- The earlier job is there, and has given back the slot of the open channel.
    have hj := List.getElem?_eq_getElem (hk ▸ hik : i < d₀.server.jobs.length)
    obtain ⟨l, hl⟩ := h₀.sound.wired.exists_origin hj
    have hsame' := hextends.origin hl
    rw [hla, Option.some.injEq] at hsame'
    subst hsame'
    generalize d₀.server.jobs[i] = a₀ at hj
    have hj₁ : d₁.server.jobs[i]? = some a₀ := by
      obtain ⟨s, hs, rfl⟩ := step?_eq_some hstep
      obtain ⟨c, x, c', book, job, -, -, -, rfl⟩ := ChannelServer.step?_taken hs
      exact (List.getElem?_append_left (hk ▸ hik)).trans hj
    have hl₁ := (extends_step hstep).origin hl
    have hle₁ : d₁.said.length ≤ p := hsaid ▸ Nat.le_trans hle (Nat.le_of_lt hgt)
    have htaken := h₁.sound.answered.taken_of_mem h₁.sound.wired (List.mem_of_getElem? hl₁)
    have hopen := h₁.sound.open_of_said hgs htaken hp hle₁
    have hreleased : a₀.released = true := by
      have hb₁ := List.getElem?_eq_getElem hk₁
      obtain ⟨b', hb', ⟨-, hbchannel, -⟩, -⟩ := h₁.sound.job_run hgs hb₁
      rw [hb, Option.some.injEq] at hb'
      subst hb'
      have hchannel₀ := (h₀.sound.answered.job i a₀ la hj hl).channel
      refine h₁.released_of_later hik hj₁ hb₁ ?_ (hchannel₀ ▸ hopen)
      exact hchannel₀.trans (hchannel.symm.trans (hsame.trans hbchannel))
    exact ⟨fs, gs, d₀, a₀, rfl, hfs, hk, hj, hreleased, h₁.message_of_said hgs hl₁ hj₁ hreleased hp hle₁,
      hsaid ▸ hle₁⟩

/-- The second request is taken when the first job is about to say that its resource is lost. -/
theorem last_message_first_unless_pending_overtaken :
    ∃ fs gs d₀ a₀ reason, overtaking = fs ++ .taken 0 :: gs ∧ (start {} Registry.builtins 4).run? fs = some d₀ ∧
      d₀.server.jobs.length = 1 ∧ d₀.server.jobs[0]? = some a₀ ∧ a₀.released = true ∧
      a₀.phase.message? = some (.error "a" reason) ∧ d₀.said.length ≤ 2 := by
  obtain ⟨d, a, b, reason, hes, ha, hb, hid, hchannel, hla, hlb, hsaid⟩ := run_overtaking
  obtain ⟨fs, gs, d₀, a₀, hfacts⟩ := (last_message_first_unless_pending (p := 2) (q := 1) hes ha hb
    (by rw [hid.1, hid.2]; decide) hchannel hla hlb (by rw [hsaid]; rfl) (by rw [hsaid]; rfl)).resolve_left (by decide)
  exact ⟨fs, gs, d₀, a₀, reason, hfacts⟩

end FrameStream
