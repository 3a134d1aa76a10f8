import FrameStream.Proofs.Channel.Admission
import FrameStream.Proofs.Channel.Succession

/-!
# Who is in the way of a request

A receive loop takes the slot for every request that can be read and leaves it to the job to judge the request. So a
request that finds the slot taken is refused because of an earlier one of its connection, and the earlier one need not
have been accepted. If it is to be rejected, it is in the way only as long as nothing has been said about it: its job
gives the slot back before it says so, and does nothing else before.
-/

namespace FrameStream

/-- A refusal does not read as if a job were active. -/
theorem Refusal.message_ne_busy (x : Refusal) (active : String) :
    x.error.message ≠ (BeginError.busy active).message := fun heq => by
  have hsame : "Validation failed: " ++ x.reason = "a job is already active on this channel" := heq
  have hfirst := congrArg (fun s => s.toList.head?) hsame
  simp [String.toList_append] at hfirst

section

variable {r : Request} {config : ServiceConfig} {registry : Registry} {closed : Bool} {p : Phase} {heard : List Message}
  {key : Option String} {reason active : String} {text : Bytes}

theorem Speech.silent_of_rejecting {x : StreamError} (h : Speech r config registry closed p heard)
    (hp : p = .rejecting key x) : heard = [] := by
  cases h with
  | rejected x refused o => cases hp
  | accepted job processor accepted p working rest later =>
    subst hp
    cases working
  | _ => rfl

theorem Declines.exists_parse {m : Message} (h : Declines text m)
    (hm : m = .rejected key (BeginError.busy active).message) : ∃ r, Request.parse text = .ok r := by
  cases h with
  | malformed e parsed =>
    injection hm with _ hreason
    exact absurd hreason (e.message_ne_busy active)
  | unstartable r e parsed => exact ⟨r, parsed⟩

end

/-- A request that can be read and for which no job is started finds the slot taken, or no channel. -/
theorem Connection.beginJob_of_take? {c c' : Connection} {b b' : ChannelBook} {config : ServiceConfig}
    {registry : Registry} {text : Bytes} {r : Request}
    (h : c.take? b config registry = some (.request text, c', b', none)) (hparse : Request.parse text = .ok r) :
    ∃ e, b.beginJob c.conn (r.key.getD "") = .error e := by
  unfold take? at h
  split at h
  · simp only [Option.some.injEq, Prod.mk.injEq] at h
    obtain ⟨rfl, h⟩ := h
    simp only [Inbound.parting, Bool.false_eq_true, if_false, request, hparse] at h
    cases hbegin : b.beginJob c.conn (r.key.getD "") with
    | error e => exact ⟨e, rfl⟩
    | ok begun => simp [hbegin] at h
  · cases h

theorem ChannelServer.take?_of_taken {s s' : ChannelServer} {n : Nat} (h : s.step? (.taken n) = some s') :
    ∃ c i c' b job, s.connections[n]? = some c ∧ c.take? s.book s.config s.registry = some (i, c', b, job) ∧
      s' = { s with connections := s.connections.set n c', book := b, jobs := s.jobs ++ job.toList } := by
  obtain ⟨⟨i, t⟩, ht, rfl⟩ := Option.map_eq_some_iff.mp h
  unfold take? at ht
  cases hc : s.connections[n]? with
  | none => simp [hc] at ht
  | some c =>
    simp only [hc] at ht
    obtain ⟨⟨i', c', b, job⟩, htake, heq⟩ := Option.map_eq_some_iff.mp ht
    cases heq
    exact ⟨c, _, c', b, job, rfl, htake, rfl⟩

theorem ChannelBook.channelOf?_of_notOpen {b : ChannelBook} {conn key : String}
    (h : b.beginJob conn key = .error .notOpen) : b.channelOf? conn = none := by
  unfold beginJob at h
  unfold channelOf?
  cases he : b.entries.get? conn with
  | none => rfl
  | some e => cases ha : e.active <;> simp [he, ha] at h

namespace Docket

variable {d d' : Docket} {l : Letter} {j : ChannelJob} {n p : Nat} {key : Option String}
  {active : String} {config : ServiceConfig} {registry : Registry} {e : ServerEvent} {es : List ServerEvent}

/-! ## Requests that are to be rejected -/

/-- The job for a request that is not accepted has given back the slot, or has yet to say its rejection. -/
def Dismisses (d : Docket) (config : ServiceConfig) (registry : Registry) : Prop :=
  ∀ (k : Nat) (j : ChannelJob) (l : Letter) (text : Bytes) (r : Request) (x : Refusal), d.server.jobs[k]? = some j →
    d.origins[k]? = some l → d.letter? l = some (.request text) → Request.parse text = .ok r →
    r.accept config.defaultModel registry = .error x → j.released = true ∨ j.phase = .rejecting r.key x.error

theorem dismisses_start (config : ServiceConfig) (registry : Registry) (depth : Nat) :
    (start config registry depth).Dismisses config registry := by
  intro k j l text r x hj
  cases hj

theorem Orderly.dismisses_step (h : d.Orderly config registry) (hd : d.Dismisses config registry)
    (hs : d.step? e = some d') : d'.Dismisses config registry := by
  intro k j' l text r x hj' hl hletter hparse hrefused
  have hextends := extends_step hs
  rcases h.sound.job_before hs hl hj' with ⟨j, hl, hj, hadvances⟩ | hstarts
  · obtain ⟨text', r', hletter', hparse', -⟩ := (h.sound.answered.job k j l hj hl).speech
    obtain rfl := hextends.request_eq hletter' hletter hparse' hparse
    rcases hd k j l text' r x hj hl hletter' hparse' hrefused with hreleased | hphase
    · exact .inl (hadvances.released hreleased)
    · have hm : j.phase.message? = some (.rejected r.key x.error.message) := by rw [hphase]; rfl
      cases hadvances with
      | stays home phase ticket kept gave heard => exact .inr (phase.trans hphase)
      | moved move event after heard =>
        subst after
        exact .inr ((JobMove.phase_of_message hm).trans hphase)
      | waits m message before last after heard =>
        subst after
        exact .inr hphase
      | said m message last opened after said =>
        subst after
        rw [hm] at message
        cases message
        exact .inl ((h.settled k j hj).last_released hm last rfl)
      | lost m message last gone after heard =>
        subst after
        rw [hm] at message
        cases message
        exact .inl ((h.settled k j hj).last_released hm last rfl)
  · obtain ⟨text', r', hletter', hparse', hphase⟩ := hstarts.phase
    obtain rfl := hextends.request_eq hletter' hletter hparse' hparse
    rw [h.sound.answered.setting.1, h.sound.answered.setting.2] at hphase
    exact .inr (by rw [hphase, Phase.start, hrefused])

theorem dismisses_run (h : d.Orderly config registry) (hd : d.Dismisses config registry) (hes : d.run? es = some d') :
    d'.Dismisses config registry :=
  (run_keeps (P := fun u => u.Orderly config registry ∧ u.Dismisses config registry)
    (fun hu hs => ⟨hu.1.step hs, hu.1.dismisses_step hu.2 hs⟩) ⟨h, hd⟩ hes).2

/-! ## The moment in which a letter is taken -/

theorem taken_step (hs : d.step? e = some d') :
    d'.taken n = d.taken n ∨ (e = .taken n ∧ d'.taken n = d.taken n + 1) := by
  obtain ⟨s, -, rfl⟩ := step?_eq_some hs
  by_cases he : ∃ m, e = .taken m
  · obtain ⟨m, rfl⟩ := he
    by_cases hm : n = m
    · subst hm
      exact .inr ⟨rfl, Function.update_self ..⟩
    · exact .inl (Function.update_of_ne hm ..)
  · exact .inl (congrFun ((d.note_keeps s e).1 fun m hm => he ⟨m, hm⟩).1 n)

theorem exists_taking (hes : d.run? es = some d') (hle : d.taken n ≤ p) (hlt : p < d'.taken n) :
    ∃ fs gs d₀ d₁, es = fs ++ .taken n :: gs ∧ d.run? fs = some d₀ ∧ d₀.step? (.taken n) = some d₁ ∧
      d₁.run? gs = some d' ∧ d₀.taken n = p ∧ p < d₁.taken n := by
  obtain ⟨fs, e, gs, d₀, d₁, rfl, hfs, hs, hgs, hle₀, hlt₁⟩ :=
    exists_crossing (P := fun u => p < u.taken n) hes (Nat.not_lt.mpr hle) hlt
  rcases taken_step (n := n) hs with hsame | ⟨rfl, hsucc⟩
  · exact absurd (hsame ▸ hlt₁) hle₀
  · exact ⟨fs, gs, d₀, d₁, rfl, hfs, hs, hgs, by omega, hlt₁⟩

/-! ## Requests that find the slot taken -/

/-- A request whose client hears that a job is active was declined by the receive loop. -/
theorem Sound.of_busy (h : d.Sound config registry)
    (hheard : .rejected key (BeginError.busy active).message ∈ d.heard l) :
    l ∉ d.origins ∧ l.place < d.taken l.connection ∧ ∃ text r, d.letter? l = some (.request text) ∧
      Request.parse text = .ok r := by
  have hjobless : l ∉ d.origins := fun hmem => by
    obtain ⟨k, hk⟩ := List.mem_iff_getElem?.mp hmem
    obtain ⟨j, -, hstands⟩ := h.answered.exists_job h.wired hk
    obtain ⟨text, r, -, -, hspeech⟩ := hstands.speech
    obtain ⟨-, x, hreason⟩ := hspeech.of_rejected hheard
    exact x.message_ne_busy active hreason.symm
  refine ⟨hjobless, ?_⟩
  cases h.answered.rest l hjobless with
  | declined taken text m request declines said =>
    rw [said] at hheard
    obtain ⟨r, hparse⟩ := declines.exists_parse (List.mem_singleton.mp hheard).symm
    exact ⟨taken, text, r, request, hparse⟩
  | declining last busy =>
    rw [h.silent_of_busy last busy] at hheard
    cases hheard
  | coming later silent =>
    rw [silent] at hheard
    cases hheard
  | skipped taken silent other =>
    rw [silent] at hheard
    cases hheard
  | unheard taken silent gone =>
    rw [silent] at hheard
    cases hheard

/-- The job `k` was started for an earlier request of the same connection than `l` and holds the slot. If its request
is not accepted, it has yet to say so. -/
structure InTheWay (d : Docket) (config : ServiceConfig) (registry : Registry) (l : Letter) (k : Nat) (j : ChannelJob)
    (l₀ : Letter) : Prop where
  job : d.server.jobs[k]? = some j
  origin : d.origins[k]? = some l₀
  earlier : l₀.connection = l.connection ∧ l₀.place < l.place
  holds : j.released = false ∧ ∃ key, d.server.book.holder? j.conn = some ⟨j.id, key⟩
  request : ∃ text r, d.letter? l₀ = some (.request text) ∧ Request.parse text = .ok r ∧
    ∀ x, r.accept config.defaultModel registry = .error x → j.phase = .rejecting r.key x.error ∧ d.heard l₀ = []

/-- Whoever holds the slot of a connection was started for an earlier letter. -/
theorem Orderly.in_the_way (h : d.Orderly config registry) (hd : d.Dismisses config registry) {c : Connection}
    {a : ActiveJob} (hc : d.server.connections[n]? = some c) (ha : d.server.book.holder? c.conn = some a) :
    ∃ k j l₀, d.InTheWay config registry (d.next n) k j l₀ := by
  obtain ⟨k, j, hj, hconn, hid, hheld⟩ := h.exists_holding ha
  obtain ⟨l₀, hl₀⟩ := h.sound.wired.exists_origin hj
  have hstands := h.sound.answered.job k j l₀ hj hl₀
  have hconnection : l₀.connection = n := by
    have htenant : d.server.tenants[k]? = some j.tenant := by simp [ChannelServer.tenants, hj]
    have hhome := h.housed.home j.tenant (List.mem_of_getElem? htenant)
    have hname : d.server.names[n]? = some j.conn := by simp [ChannelServer.names, hc, hconn]
    have hlt := (List.getElem?_eq_some_iff.mp hhome).1
    exact hstands.channel.symm.trans ((List.getElem?_inj hlt h.housed.distinct).mp (hhome.trans hname.symm))
  obtain ⟨text, r, hletter, hparse, hspeech⟩ := hstands.speech
  refine ⟨k, j, l₀, hj, hl₀, ⟨hconnection, hconnection ▸ hstands.taken⟩, ⟨hheld, a.key, ?_⟩,
    text, r, hletter, hparse, fun x hrefused => ?_⟩
  · rw [hconn, hid, ha]
  · rcases hd k j l₀ text r x hj hl₀ hletter hparse hrefused with hreleased | hphase
    · rw [hheld] at hreleased
      cases hreleased
    · exact ⟨hphase, hspeech.silent_of_rejecting hphase⟩

/-- A request that can be read, and for which no job is started on an open channel, finds the slot taken. -/
theorem Orderly.held_of_jobless {d'' : Docket} {text : Bytes} {r : Request} (h : d.Orderly config registry)
    (hs : d.step? (.taken n) = some d') (hlater : d'.Extends d'') (hopen : d.server.book.closed n = false)
    (hletter : d''.letter? (d.next n) = some (.request text)) (hparse : Request.parse text = .ok r)
    (hjobless : d.next n ∉ d''.origins) :
    ∃ c a, d.server.connections[n]? = some c ∧ d.server.book.holder? c.conn = some a := by
  obtain ⟨s, hstep, hd'⟩ := step?_eq_some hs
  obtain ⟨c, i, c', b, job, hc, htake, hserver⟩ := ChannelServer.take?_of_taken hstep
  obtain ⟨-, htakes⟩ := Connection.takes_of_take? htake
  obtain rfl : i = .request text := by
    have hfirst := ((extends_step hs).trans hlater).letter (h.sound.wired.next_letter hc htakes.next_inbound.1).1
    exact (Option.some.inj (hletter.symm.trans hfirst)).symm
  obtain rfl : job = none := by
    have horigins := (takes_note hserver htakes.next_inbound.2.2).origins
    rw [← hd'] at horigins
    refine Option.eq_none_iff_forall_ne_some.mpr fun j hj => hjobless (hlater.origins.subset ?_)
    rw [horigins, hj]
    exact List.mem_append_right _ (List.mem_singleton.mpr rfl)
  obtain ⟨x, hx⟩ := Connection.beginJob_of_take? htake hparse
  cases x with
  | notOpen =>
    have hname : d.server.names[n]? = some c.conn := by simp [ChannelServer.names, hc]
    rcases h.housed.listed n c.conn hname with hlisted | ⟨-, hclosed⟩
    · rw [ChannelBook.channelOf?_of_notOpen hx] at hlisted
      cases hlisted
    · rw [hopen] at hclosed
      cases hclosed
  | busy active =>
    obtain ⟨a, ha, -⟩ := ChannelBook.beginJob_eq_busy hx
    exact ⟨c, a, hc, ha⟩

end Docket

open Docket

/-- A request is refused because a job is active only if, when it was taken, the job for an earlier request of the same
connection held the slot. That request could be read. If it is not accepted, its rejection was yet to come. -/
theorem slot_taken_by_earlier_request {es : List ServerEvent} {d : Docket} {config : ServiceConfig}
    {registry : Registry} {depth : Nat} {l : Letter} {key : Option String} {active : String}
    (hes : (start config registry depth).run? es = some d)
    (hheard : .rejected key (BeginError.busy active).message ∈ d.heard l) :
    ∃ fs gs d₀ k j l₀, es = fs ++ .taken l.connection :: gs ∧ (start config registry depth).run? fs = some d₀ ∧
      d₀.next l.connection = l ∧ d₀.InTheWay config registry l k j l₀ := by
  have hstart := orderly_start config registry depth
  have horderly := orderly_run hstart hes
  obtain ⟨hjobless, htaken, text, r, hletter, hparse⟩ := horderly.sound.of_busy hheard
  obtain ⟨fs, gs, d₀, d₁, rfl, hfs, hstep, hgs, hplace, htaken₁⟩ := exists_taking hes (Nat.zero_le _) htaken
  have hnext : d₀.next l.connection = l := by rw [next, hplace]
  have h₀ := orderly_run hstart hfs
  have h₁ := h₀.step hstep
  have hlater := extends_run hgs
  -- The channel is open when the letter is taken, for something is heard about it later.
  have hopen : d₀.server.book.closed l.connection = false := by
    have hsilent : d₁.heard l = [] := by
      obtain ⟨s, -, rfl⟩ := step?_eq_some hstep
      exact (heard_of_said rfl l).trans (h₀.sound.silent_of_next hnext.symm)
    refine Bool.eq_false_iff.mpr fun hclosed => ?_
    have hopen₁ := h₁.sound.open_of_heard hgs htaken₁ hsilent hheard
    have hlt : l.connection < d₀.server.connections.length := by
      obtain ⟨s, hs, -⟩ := step?_eq_some hstep
      obtain ⟨c, i, c', b, job, hc, -⟩ := ChannelServer.take?_of_taken hs
      exact (List.getElem?_eq_some_iff.mp hc).1
    rw [closed_step h₀.sound.wired hstep hlt hclosed] at hopen₁
    cases hopen₁
  obtain ⟨c, a, hc, ha⟩ := h₀.held_of_jobless hstep hlater hopen (hnext.symm ▸ hletter) hparse (hnext.symm ▸ hjobless)
  have hdismisses := dismisses_run hstart (dismisses_start config registry depth) hfs
  obtain ⟨k, j, l₀, hinTheWay⟩ := h₀.in_the_way hdismisses hc ha
  exact ⟨fs, gs, d₀, k, j, l₀, rfl, hfs, hnext, hnext ▸ hinTheWay⟩

/-- Two requests on one channel. The first has no key; the second is taken before the first is told so. -/
def hindered : List ServerEvent := [
  .accepted "c",
  .arrived 0 (.request (Bytes.ofText "\x7b\x7d")),
  .arrived 0 (.request (Bytes.ofText "\x7b\"key\":\"b\",\"resource\":\"r\"\x7d")),
  .taken 0, .taken 0, .refused 0, .sent 0, .sent 0]

theorem run_hindered : ∃ d text, (start {} Registry.builtins 4).run? hindered = some d ∧
    d.heard ⟨0, 1⟩ = [.rejected (some "b") (BeginError.busy "").message] ∧
    d.letter? ⟨0, 0⟩ = some (.request text) ∧ Request.parse text = .ok {} ∧
    Request.accept {} ({} : ServiceConfig).defaultModel Registry.builtins = .error .keyMissing :=
  ⟨_, _, rfl, rfl, rfl, rfl, rfl⟩

/-- The second request is refused because of the first, which is not accepted. -/
theorem slot_taken_by_earlier_request_hindered :
    ∃ (fs gs : List ServerEvent) (d₀ : Docket) (k : Nat) (j : ChannelJob), hindered = fs ++ .taken 0 :: gs ∧
      (start {} Registry.builtins 4).run? fs = some d₀ ∧ d₀.server.jobs[k]? = some j ∧ j.released = false ∧
      j.phase = .rejecting none Refusal.keyMissing.error := by
  obtain ⟨d, text, hes, hsecond, hletter, hparse, hrefused⟩ := run_hindered
  obtain ⟨fs, gs, d₀, k, j, l₀, hsplit, hfs, hnext, hway⟩ :=
    slot_taken_by_earlier_request hes (by rw [hsecond]; exact List.mem_singleton.mpr rfl)
  obtain ⟨text', r, hletter₀, hparse₀, hrejecting⟩ := hway.request
  have hextends : d₀.Extends d := by
    rw [hsplit, run?, List.foldlM_append] at hes
    obtain ⟨d₁, hd₁, hrest⟩ := Option.bind_eq_some_iff.mp hes
    rw [run?, hd₁, Option.some.injEq] at hfs
    exact hfs ▸ extends_run hrest
  obtain ⟨n, p⟩ := l₀
  obtain ⟨hn, hp⟩ := hway.earlier
  obtain rfl : n = 0 := hn
  obtain rfl : p = 0 := Nat.lt_one_iff.mp hp
  obtain rfl := hextends.request_eq hletter₀ hletter hparse₀ hparse
  exact ⟨fs, gs, d₀, k, j, hsplit, hfs, hway.job, hway.holds.1, (hrejecting .keyMissing hrefused).1⟩

/-- A request may be refused because a job is active although no request before it is accepted. -/
theorem refused_by_unacceptable_request : ¬ ∀ (es : List ServerEvent) (d : Docket) (l : Letter) (key : Option String)
    (active : String), (start {} Registry.builtins 4).run? es = some d →
    .rejected key (BeginError.busy active).message ∈ d.heard l →
    ∃ l₀ text r admitted, l₀.connection = l.connection ∧ l₀.place < l.place ∧
      d.letter? l₀ = some (.request text) ∧ Request.parse text = .ok r ∧
      r.accept ({} : ServiceConfig).defaultModel Registry.builtins = .ok admitted := by
  intro hclaim
  obtain ⟨d, text, hes, hsecond, hletter, hparse, hrefused⟩ := run_hindered
  obtain ⟨⟨n, p⟩, text', r, admitted, hn, hp, hletter', hparse', haccepted⟩ := hclaim hindered d ⟨0, 1⟩ (some "b") ""
    hes (by rw [hsecond]; exact List.mem_singleton.mpr rfl)
  obtain rfl : n = 0 := hn
  obtain rfl : p = 0 := Nat.lt_one_iff.mp hp
  rw [hletter] at hletter'
  cases hletter'
  rw [hparse] at hparse'
  cases hparse'
  rw [hrefused] at haccepted
  cases haccepted

end FrameStream
