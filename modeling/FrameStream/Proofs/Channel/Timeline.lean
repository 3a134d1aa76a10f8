import Mathlib.Order.WellFounded
import FrameStream.Proofs.Channel.Flow
import FrameStream.Proofs.Channel.Intake

/-!
# Timelines

What must happen at last is said about timelines, which never end. Nothing is assumed but that whoever can go on
for ever does so at some moment, and that a queue is drained. Then nobody waits in line for ever: the first in line
goes on as soon as there is room, nobody takes that room, and a full queue does not stay full.
-/

namespace FrameStream

/-- The queue of a channel; an empty one where there is none. -/
def Docket.outbound (d : Docket) (n : ChannelNumber) : Outbound := (d.server.book.channel? n).getD default

/-- Nobody who serves the connection `n` can go on. -/
def Docket.atRest (d : Docket) (n : Nat) : Bool :=
  (d.step? (.taken n)).isNone && (d.step? (.refused n)).isNone && (d.step? (.resumed n)).isNone &&
    d.server.jobs.all (·.message?.isNone) && (d.outbound n).queued.isEmpty

/-- What happens moment by moment; at some moments nothing does. -/
structure Timeline where
  docket : Nat → Docket
  event : Nat → Option ServerEvent

namespace Timeline

/-- A timeline begins without connections, and all that happens are steps that can be made. -/
structure Runs (σ : Timeline) (config : ServiceConfig) (registry : Registry) (depth : Nat) : Prop where
  start : σ.docket 0 = .start config registry depth
  idle : ∀ t, σ.event t = none → σ.docket (t + 1) = σ.docket t
  step : ∀ t e, σ.event t = some e → (σ.docket t).step? e = some (σ.docket (t + 1))

/-- An event that can happen at every moment from some one on happens at one of them. -/
def Fair (σ : Timeline) (e : ServerEvent) : Prop :=
  ∀ t, (∀ u, t ≤ u → ((σ.docket u).step? e).isSome = true) → ∃ u, t ≤ u ∧ σ.event u = some e

/-- The loops, the jobs and the waiters of a connection are not held up for ever, and its queue is drained. -/
structure Serves (σ : Timeline) (n : Nat) : Prop where
  taken : σ.Fair (.taken n)
  refused : σ.Fair (.refused n)
  resumed : σ.Fair (.resumed n)
  sent : ∀ t k j, (σ.docket t).server.jobs[k]? = some j → j.channel = n → σ.Fair (.sent k)
  drained : ∀ t, (∀ u, t ≤ u → ((σ.docket u).outbound n).queued ≠ []) → ∃ u, t ≤ u ∧ σ.event u = some (.forwarded n)

/-- The channel `n` is open from the moment `t` on. -/
def StaysOpen (σ : Timeline) (n : ChannelNumber) (t : Nat) : Prop :=
  ∀ u, t ≤ u → (σ.docket u).server.book.closed n = false

variable {σ : Timeline} {config : ServiceConfig} {registry : Registry} {depth n t u : Nat}

theorem StaysOpen.mono (h : σ.StaysOpen n t) (hu : t ≤ u) : σ.StaysOpen n u := fun v hv => h v (Nat.le_trans hu hv)

/-- What holds at the start and is kept by every step holds at every moment. -/
theorem Runs.invariant (h : σ.Runs config registry depth) {P : Docket → Prop}
    (hstart : P (.start config registry depth)) (hstep : ∀ d e d', d.step? e = some d' → P d → P d') (t : Nat) :
    P (σ.docket t) := by
  induction t with
  | zero =>
    rw [h.start]
    exact hstart
  | succ t ih =>
    cases he : σ.event t with
    | none =>
      rw [h.idle t he]
      exact ih
    | some e => exact hstep _ e _ (h.step t e he) ih

theorem Runs.sound (h : σ.Runs config registry depth) (t : Nat) : (σ.docket t).Sound config registry :=
  h.invariant (P := fun d => d.Sound config registry) (Docket.sound_start config registry depth)
    (fun _ _ _ hs hsound => hsound.step hs) t

theorem Runs.deep (h : σ.Runs config registry depth) (t : Nat) : (σ.docket t).server.book.Deep := by
  have hboth := h.invariant (P := fun d => d.Sound config registry ∧ d.server.book.Deep)
    ⟨Docket.sound_start config registry depth, fun _ _ ho => nomatch ho⟩ (fun d e d' hs hd => ?_) t
  · exact hboth.2
  · obtain ⟨s, hstep, hnext⟩ := Docket.step?_eq_some hs
    refine ⟨hd.1.step hs, ?_⟩
    rw [hnext]
    exact (hd.1.wired.flow hstep).deep hd.2

theorem outbound_eq_some {d : Docket} (h : d.server.book.closed n = false) :
    d.server.book.channels[n]? = some (d.outbound n) ∧ (d.outbound n).closed = false := by
  unfold ChannelBook.closed ChannelBook.channel? at h
  unfold Docket.outbound ChannelBook.channel?
  cases ho : d.server.book.channels[n]? with
  | none => simp [ho] at h
  | some o => exact ⟨rfl, by simpa [ho] using h⟩

theorem Runs.flow (h : σ.Runs config registry depth) (hopen : σ.StaysOpen n t) (hu : t ≤ u) :
    ((σ.docket u).outbound n).Flow (σ.event u) n ((σ.docket (u + 1)).outbound n) := by
  have ho := (outbound_eq_some (hopen u hu)).1
  cases he : σ.event u with
  | none =>
    rw [h.idle u he]
    exact .calm _ (.refl _)
  | some e =>
    obtain ⟨s, hs, hnext⟩ := Docket.step?_eq_some (h.step u e he)
    obtain ⟨o', ho', hflow⟩ := ((h.sound u).wired.flow hs).queue ho
    have hsame := (outbound_eq_some (hopen (u + 1) (Nat.le_succ_of_le hu))).1
    rw [hnext] at hsame ⊢
    rw [ho'] at hsame
    cases hsame
    exact hflow

/-! ## Nobody waits in line for ever -/

/-- A number that never grows comes to rest. -/
theorem settles {f : Nat → Nat} (h : ∀ u, t ≤ u → f (u + 1) ≤ f u) : ∃ u, t ≤ u ∧ ∀ v, u ≤ v → f v = f u := by
  obtain ⟨u, hu, hmin⟩ := WellFounded.has_min (measure f).wf {u | t ≤ u} ⟨t, Nat.le_refl t⟩
  refine ⟨u, hu, fun v hv => ?_⟩
  induction v, hv using Nat.le_induction with
  | base => rfl
  | succ v hv ih =>
    have hle := h v (Nat.le_trans hu hv)
    have hge := hmin (v + 1) (Nat.le_succ_of_le (Nat.le_trans hu hv))
    have hge' : f u ≤ f (v + 1) := Nat.le_of_not_lt hge
    omega

/-- Nobody waits under the number of another. -/
theorem nodup_tickets {d : Docket} (h : d.Mirrored) {o : Outbound} (ho : d.server.book.channels[n]? = some o) :
    o.tickets.Nodup := by
  rw [Outbound.tickets, h.waiting n o ho, List.map_map]
  exact h.tickets.sublist (List.filter_sublist.map _)

/-- Where an event happens the server takes its step. -/
theorem Runs.server_step (h : σ.Runs config registry depth) {e : ServerEvent} (he : σ.event u = some e) :
    (σ.docket u).server.step? e = some (σ.docket (u + 1)).server := by
  obtain ⟨s, hs, hnext⟩ := Docket.step?_eq_some (h.step u e he)
  rw [hs, hnext]

theorem Runs.tickets_of_resumed (h : σ.Runs config registry depth) (hopen : σ.StaysOpen n t) (hu : t ≤ u)
    (he : σ.event u = some (.resumed n)) :
    ∃ first, ((σ.docket u).outbound n).tickets = first :: ((σ.docket (u + 1)).outbound n).tickets := by
  obtain ⟨o, ticket, delivered, o', ho, hresume, hserver⟩ := ChannelServer.step?_resumed (h.server_step he)
  have hold := (outbound_eq_some (hopen u hu)).1
  have hnew := (outbound_eq_some (hopen (u + 1) (Nat.le_succ_of_le hu))).1
  rw [ho] at hold
  rw [hserver, ChannelServer.answer, ChannelBook.modify_self ho] at hnew
  cases hold
  cases hnew
  exact ⟨ticket, Outbound.tickets_of_resume? hresume⟩

/-- What the forwarding loop takes is the first of what is queued. -/
theorem forwarded_of_queued {d d' : Docket} (h : d.Wired) (hs : d.step? (.forwarded n) = some d') {o : Outbound}
    {f : OutFrame} {rest : List OutFrame} (ho : d.server.book.channels[n]? = some o)
    (hqueued : o.queued = f :: rest) :
    d'.server.book.channels[n]? = some { o with queued := rest } ∧ d'.forwarded n = d.forwarded n ++ [f] := by
  obtain ⟨s, hstep, rfl⟩ := Docket.step?_eq_some hs
  have htake : o.take? = some (f, { o with queued := rest }) := Outbound.take?_eq_some.mpr ⟨rest, hqueued, rfl⟩
  obtain ⟨c, hc, -, ⟨f₁, o₁, o', ho₁, htake₁, rfl⟩ | ⟨hnone, -⟩⟩ := ChannelServer.step?_forwarded hstep
  · rw [h.channel n c hc] at ho₁ ⊢
    rw [ho] at ho₁
    cases ho₁
    rw [htake] at htake₁
    cases htake₁
    refine ⟨ChannelBook.modify_self ho, ?_⟩
    simp [Docket.note, hc, h.channel n c hc, ChannelBook.take?, ChannelBook.channel?, ho, htake]
  · simp [ChannelBook.take?, ChannelBook.channel?, h.channel n c hc, ho, htake] at hnone

theorem Runs.queued_of_forwarded (h : σ.Runs config registry depth) (hopen : σ.StaysOpen n t) (hu : t ≤ u)
    (he : σ.event u = some (.forwarded n)) (hqueued : ((σ.docket u).outbound n).queued ≠ []) :
    ∃ f, ((σ.docket u).outbound n).queued = f :: ((σ.docket (u + 1)).outbound n).queued ∧
      (σ.docket (u + 1)).forwarded n = (σ.docket u).forwarded n ++ [f] := by
  obtain ⟨f, rest, hf⟩ := List.exists_cons_of_ne_nil hqueued
  have hhere := (outbound_eq_some (hopen u hu)).1
  obtain ⟨ho, hforwarded⟩ := forwarded_of_queued (h.sound u).wired (h.step u _ he) hhere hf
  have hnew := (outbound_eq_some (hopen (u + 1) (Nat.le_succ_of_le hu))).1
  rw [ho, Option.some.injEq] at hnew
  exact ⟨f, by rw [hf, ← hnew], hforwarded⟩

/-- Who waits never falls back, and moves up when somebody goes on. -/
theorem Runs.idxOf_tickets (h : σ.Runs config registry depth) (hopen : σ.StaysOpen n t) {x : Nat}
    (hwaits : ∀ u, t ≤ u → x ∈ ((σ.docket u).outbound n).tickets) (hu : t ≤ u) :
    ((σ.docket (u + 1)).outbound n).tickets.idxOf x ≤ ((σ.docket u).outbound n).tickets.idxOf x ∧
      (σ.event u = some (.resumed n) →
        ((σ.docket (u + 1)).outbound n).tickets.idxOf x < ((σ.docket u).outbound n).tickets.idxOf x) := by
  have hnodup := nodup_tickets (h.sound u).mirrored (outbound_eq_some (hopen u hu)).1
  by_cases he : σ.event u = some (.resumed n)
  · obtain ⟨first, hfirst⟩ := h.tickets_of_resumed hopen hu he
    rw [hfirst] at hnodup ⊢
    have hne : first ≠ x := fun heq =>
      (List.nodup_cons.mp hnodup).1 (heq ▸ hwaits (u + 1) (Nat.le_succ_of_le hu))
    rw [List.idxOf_cons_ne _ hne]
    exact ⟨Nat.le_succ _, fun _ => Nat.lt_succ_self _⟩
  · rcases (h.flow hopen hu).tickets with ⟨more, hmore⟩ | ⟨hresumed, -⟩
    · rw [hmore, List.idxOf_append_of_mem (hwaits u hu)]
      exact ⟨Nat.le_refl _, fun hresumed => absurd hresumed he⟩
    · exact absurd hresumed he

/-- A queue in which somebody always waits does not stay full while nobody goes on. -/
theorem Runs.makes_room (h : σ.Runs config registry depth) (hserves : σ.Serves n) (hopen : σ.StaysOpen n t)
    (hwaiting : ∀ u, t ≤ u → 0 < ((σ.docket u).outbound n).waiting.length)
    (hstuck : ∀ u, t ≤ u → σ.event u ≠ some (.resumed n)) :
    ∃ u, t ≤ u ∧ ((σ.docket u).outbound n).queued.length < ((σ.docket u).outbound n).depth := by
  by_contra hnever
  have hfull : ∀ u, t ≤ u → ((σ.docket u).outbound n).depth ≤ ((σ.docket u).outbound n).queued.length := fun u hu =>
    Nat.le_of_not_lt fun hroom => hnever ⟨u, hu, hroom⟩
  obtain ⟨t₁, ht₁, hlength⟩ := settles (t := t) (f := fun u => ((σ.docket u).outbound n).queued.length) fun u hu => by
    have hfull' := hfull (u + 1) (Nat.le_succ_of_le hu)
    have hwaiting' := hwaiting (u + 1) (Nat.le_succ_of_le hu)
    rcases (h.flow hopen hu).room with hle | hroom | he
    · exact hle
    · omega
    · exact absurd he (hstuck u hu)
  have hqueued : ∀ u, t₁ ≤ u → ((σ.docket u).outbound n).queued ≠ [] := fun u hu => by
    have hdeep := h.deep u n _ (outbound_eq_some (hopen u (Nat.le_trans ht₁ hu))).1
    exact List.ne_nil_of_length_pos (Nat.lt_of_lt_of_le hdeep (hfull u (Nat.le_trans ht₁ hu)))
  obtain ⟨u, hu, he⟩ := hserves.drained t₁ hqueued
  obtain ⟨f, hf, -⟩ := h.queued_of_forwarded hopen (Nat.le_trans ht₁ hu) he (hqueued u hu)
  have hhere : ((σ.docket u).outbound n).queued.length = _ := hlength u hu
  have hthere : ((σ.docket (u + 1)).outbound n).queued.length = _ := hlength (u + 1) (Nat.le_succ_of_le hu)
  rw [hf, List.length_cons] at hhere
  omega

/-- Where somebody always waits and there is room, somebody goes on. -/
theorem Runs.goes_on (h : σ.Runs config registry depth) (hserves : σ.Serves n) (hopen : σ.StaysOpen n t)
    (hwaiting : ∀ u, t ≤ u → 0 < ((σ.docket u).outbound n).waiting.length)
    (hroom : ((σ.docket t).outbound n).queued.length < ((σ.docket t).outbound n).depth) :
    ∃ u, t ≤ u ∧ σ.event u = some (.resumed n) := by
  by_contra hnever
  have hstays : ∀ u, t ≤ u → ((σ.docket u).outbound n).queued.length < ((σ.docket u).outbound n).depth := by
    intro u hu
    induction u, hu using Nat.le_induction with
    | base => exact hroom
    | succ u hu ih =>
      have hflow := h.flow hopen hu
      have hdepth := hflow.depth
      have hwaiting' := hwaiting (u + 1) (Nat.le_succ_of_le hu)
      rcases hflow.room with hle | hleft | he
      · omega
      · omega
      · exact absurd ⟨u, hu, he⟩ hnever
  refine hnever (hserves.resumed t fun u hu => ?_)
  obtain ⟨ho, hclosed⟩ := outbound_eq_some (hopen u hu)
  rw [Docket.isSome_step?]
  exact ChannelServer.isSome_resumed ho (hwaiting u hu) hclosed (hstays u hu)

theorem Runs.not_waiting_forever (h : σ.Runs config registry depth) (hserves : σ.Serves n) (hopen : σ.StaysOpen n t)
    {x : Nat} : ¬ ∀ u, t ≤ u → x ∈ ((σ.docket u).outbound n).tickets := by
  intro hwaits
  -- From some moment on nobody goes on.
  obtain ⟨t₁, ht₁, hrank⟩ := settles (f := fun u => ((σ.docket u).outbound n).tickets.idxOf x)
    fun u hu => (h.idxOf_tickets hopen hwaits hu).1
  have hstuck : ∀ u, t₁ ≤ u → σ.event u ≠ some (.resumed n) := by
    intro u hu he
    have hlt := (h.idxOf_tickets hopen hwaits (Nat.le_trans ht₁ hu)).2 he
    have hhere := hrank u hu
    have hthere := hrank (u + 1) (Nat.le_succ_of_le hu)
    omega
  have hwaiting : ∀ u, t₁ ≤ u → 0 < ((σ.docket u).outbound n).waiting.length := by
    intro u hu
    have hpos := List.length_pos_of_mem (hwaits u (Nat.le_trans ht₁ hu))
    rwa [Outbound.tickets, List.length_map] at hpos
  -- But then a queue that is drained has room at some moment, and somebody does.
  obtain ⟨t₂, ht₂, hroom⟩ := h.makes_room hserves (hopen.mono ht₁) hwaiting hstuck
  obtain ⟨u, hu, he⟩ := h.goes_on hserves (hopen.mono (Nat.le_trans ht₁ ht₂))
    (fun u hu => hwaiting u (Nat.le_trans ht₂ hu)) hroom
  exact hstuck u (Nat.le_trans ht₂ hu) he

/-! ## Timelines that stop -/

/-- A run, after which nothing happens any more. -/
def stopping (d : Docket) (es : List ServerEvent) : Timeline where
  docket t := (d.run? (es.take t)).getD d
  event t := es[t]?

section

variable {d d' : Docket} {es : List ServerEvent}

theorem run?_take (h : d.run? es = some d') (t : Nat) : ∃ d₁, d.run? (es.take t) = some d₁ := by
  rw [← List.take_append_drop t es, Docket.run?, List.foldlM_append] at h
  obtain ⟨d₁, hd₁, -⟩ := Option.bind_eq_some_iff.mp h
  exact ⟨d₁, hd₁⟩

theorem docket_stopping (h : d.run? es = some d') (hu : es.length ≤ u) : (stopping d es).docket u = d' := by
  simp only [stopping, List.take_of_length_le hu, h, Option.getD_some]

theorem runs_stopping (h : (Docket.start config registry depth).run? es = some d') :
    (stopping (Docket.start config registry depth) es).Runs config registry depth where
  start := rfl
  idle t he := by
    have hlength : es.length ≤ t := List.getElem?_eq_none_iff.mp he
    rw [docket_stopping h hlength, docket_stopping h (Nat.le_succ_of_le hlength)]
  step t e he := by
    have he' : es[t]? = some e := he
    obtain ⟨d₁, hd₁⟩ := run?_take h t
    obtain ⟨d₂, hd₂⟩ := run?_take h (t + 1)
    have htake : es.take (t + 1) = es.take t ++ [e] := by rw [List.take_add_one, he', Option.toList_some]
    simp only [stopping, hd₁, hd₂, Option.getD_some]
    rw [htake, Docket.run?, List.foldlM_append] at hd₂
    obtain ⟨d₁', hd₁', hstep⟩ := Option.bind_eq_some_iff.mp hd₂
    rw [Docket.run?] at hd₁
    rw [hd₁] at hd₁'
    cases hd₁'
    simpa using hstep

/-- An event that cannot happen in the end need not happen. -/
theorem fair_stopping (h : d.run? es = some d') {e : ServerEvent} (he : (d'.step? e).isNone = true) :
    (stopping d es).Fair e := by
  intro t henabled
  have hend := henabled (max t es.length) (Nat.le_max_left _ _)
  rw [docket_stopping h (Nat.le_max_right _ _), Option.isNone_iff_eq_none.mp he] at hend
  cases hend

/-- A timeline that stops when all is done has served everybody. -/
theorem serves_stopping (h : d.run? es = some d') (hrest : d'.atRest n = true) : (stopping d es).Serves n := by
  simp only [Docket.atRest, Bool.and_eq_true] at hrest
  obtain ⟨⟨⟨⟨htaken, hrefused⟩, hresumed⟩, hsent⟩, hqueued⟩ := hrest
  refine ⟨fair_stopping h htaken, fair_stopping h hrefused, fair_stopping h hresumed, fun t k j hj hchannel => ?_, ?_⟩
  · refine fair_stopping h (Option.isNone_iff_eq_none.mpr (Option.eq_none_iff_forall_not_mem.mpr fun d'' hd'' => ?_))
    obtain ⟨s, hs, -⟩ := Docket.step?_eq_some hd''
    obtain ⟨i, m, hi, hticket, hm, -⟩ := ChannelServer.step?_sent hs
    have hnone := List.all_eq_true.mp hsent i (List.mem_of_getElem? hi)
    simp [ChannelJob.message?, hticket, hm] at hnone
  · intro t hnonempty
    have hend := hnonempty (max t es.length) (Nat.le_max_left _ _)
    rw [docket_stopping h (Nat.le_max_right _ _)] at hend
    exact absurd (List.isEmpty_iff.mp hqueued) hend

end

end Timeline
end FrameStream
