import FrameStream.Proofs.Channel.Timeline
import FrameStream.Proofs.Channel.Turns

/-!
# Every request is answered at last

On a channel that stays open the receive loop comes back to listening, for its refusal does not wait for ever; so it
takes every letter at some moment. Then the letter is declined, or its job has its say. Each part is shown by what
would have to be so if it never happened: somebody could go on for ever and did not.
-/

namespace FrameStream

/-- Where the receive loop of a connection is; it has left a connection that there is not. -/
def Docket.receiving (d : Docket) (n : Nat) : Receiving :=
  match d.server.connections[n]? with
  | some c => c.receiving
  | none => .left

namespace Timeline

variable {σ : Timeline} {config : ServiceConfig} {registry : Registry} {depth n k t u : Nat} {l : Letter}

theorem Runs.extends (h : σ.Runs config registry depth) (hu : t ≤ u) : (σ.docket t).Extends (σ.docket u) := by
  induction u, hu using Nat.le_induction with
  | base => exact .refl _
  | succ u hu ih =>
    refine ih.trans ?_
    cases he : σ.event u with
    | none =>
      rw [h.idle u he]
      exact .refl _
    | some e => exact Docket.extends_step (h.step u e he)

/-! ## The receive loop -/

theorem Runs.exists_connection (h : σ.Runs config registry depth) (hopen : σ.StaysOpen n t) (hu : t ≤ u) :
    ∃ c, (σ.docket u).server.connections[n]? = some c ∧ (σ.docket u).receiving n = c.receiving ∧
      c.receiving ≠ .left := by
  have hwired := (h.sound u).wired
  have hlt := (List.getElem?_eq_some_iff.mp (outbound_eq_some (hopen u hu)).1).1
  rw [hwired.channels] at hlt
  have hc := List.getElem?_eq_getElem hlt
  refine ⟨_, hc, by simp [Docket.receiving, hc], fun hleft => ?_⟩
  have hclosed := (h.sound u).answered.loop n _ hc
  rw [hleft] at hclosed
  exact absurd hclosed (by simp [Docket.LoopStands, hopen u hu])

theorem Runs.receiving_turn (h : σ.Runs config registry depth) (hopen : σ.StaysOpen n t) (hu : t ≤ u) :
    ((σ.docket u).receiving n).Turn (σ.event u) n ((σ.docket (u + 1)).receiving n) := by
  cases he : σ.event u with
  | none =>
    rw [h.idle u he]
    exact .same
  | some e =>
    obtain ⟨c, hc, hreceiving, -⟩ := h.exists_connection hopen hu
    obtain ⟨c', hc', hturn⟩ := ChannelServer.receiving_step (h.server_step he) hc
    have hreceiving' : (σ.docket (u + 1)).receiving n = c'.receiving := by simp [Docket.receiving, hc']
    rw [hreceiving, hreceiving']
    exact hturn

theorem Runs.receiving_of_refused (h : σ.Runs config registry depth) (he : σ.event u = some (.refused n)) :
    (σ.docket (u + 1)).receiving n = .listening ∨ ∃ ticket, (σ.docket (u + 1)).receiving n = .waiting ticket := by
  obtain ⟨c, m, hc, -, hserver⟩ := ChannelServer.step?_refused (h.server_step he)
  have hlt := (List.getElem?_eq_some_iff.mp hc).1
  simp only [Docket.receiving, hserver, List.getElem?_set_self hlt]
  cases ((σ.docket u).server.book.send c.channel (σ.docket u).server.nextTicket m.text).1 with
  | queued => exact .inl rfl
  | closed => exact .inl rfl
  | waits => exact .inr ⟨_, rfl⟩

/-- A message that waits is in line. -/
theorem mem_tickets {d : Docket} (h : d.Mirrored) {w : Waiter} (hw : w ∈ d.waiters) {o : Outbound}
    (ho : d.server.book.channels[w.letter.connection]? = some o) : w.ticket ∈ o.tickets := by
  rw [Outbound.tickets, h.waiting _ o ho, List.map_map]
  exact List.mem_map.mpr ⟨w, List.mem_filter.mpr ⟨hw, by simp⟩, rfl⟩

theorem Runs.listens (h : σ.Runs config registry depth) (hserves : σ.Serves n) (hopen : σ.StaysOpen n t) :
    ∃ u, t ≤ u ∧ (σ.docket u).receiving n = .listening := by
  by_contra hnever
  have hdeaf : ∀ u, t ≤ u → (σ.docket u).receiving n ≠ .listening := fun u hu hlistens => hnever ⟨u, hu, hlistens⟩
  by_cases hwaits : ∃ u ticket, t ≤ u ∧ (σ.docket u).receiving n = .waiting ticket
  · -- A refusal that waits keeps its place in line for ever.
    obtain ⟨t₁, ticket, ht₁, hwaiting⟩ := hwaits
    have hstays : ∀ u, t₁ ≤ u → (σ.docket u).receiving n = .waiting ticket := by
      intro u hu
      induction u, hu using Nat.le_induction with
      | base => exact hwaiting
      | succ u hu ih =>
        have hturn := h.receiving_turn hopen (Nat.le_trans ht₁ hu)
        rw [ih] at hturn
        generalize hr : (σ.docket (u + 1)).receiving n = r at hturn
        cases hturn with
        | same => rfl
        | left listens => cases listens
        | taken r' event listens => cases listens
        | refused m r' refuses => cases refuses
        | resumed x waits => exact absurd hr (hdeaf (u + 1) (Nat.le_succ_of_le (Nat.le_trans ht₁ hu)))
    refine h.not_waiting_forever hserves (hopen.mono ht₁) (x := ticket) fun u hu => ?_
    obtain ⟨c, hc, hreceiving, -⟩ := h.exists_connection hopen (Nat.le_trans ht₁ hu)
    have hloop := (h.sound u).answered.loop n c hc
    rw [← hreceiving, hstays u hu] at hloop
    obtain ⟨m, -, hw⟩ := hloop
    exact mem_tickets (h.sound u).mirrored hw (outbound_eq_some (hopen u (Nat.le_trans ht₁ hu))).1
  · -- A refusal that does not wait can always be handed over.
    obtain ⟨u, hu, he⟩ := hserves.refused t fun u hu => by
      obtain ⟨c, hc, hreceiving, hleft⟩ := h.exists_connection hopen hu
      rw [Docket.isSome_step?]
      cases hr : c.receiving with
      | listening => exact absurd (hreceiving.trans hr) (hdeaf u hu)
      | refusing m => exact ChannelServer.isSome_refused hc hr
      | waiting ticket => exact absurd ⟨u, ticket, hu, hreceiving.trans hr⟩ hwaits
      | left => exact absurd hr hleft
    rcases h.receiving_of_refused he with hlistens | ⟨ticket, hwaiting⟩
    · exact hdeaf (u + 1) (Nat.le_succ_of_le hu) hlistens
    · exact hwaits ⟨u + 1, ticket, Nat.le_succ_of_le hu, hwaiting⟩

/-- Every letter is taken at some moment. -/
theorem Runs.takes (h : σ.Runs config registry depth) (hserves : σ.Serves n) (hopen : σ.StaysOpen n t) {p : Nat}
    (hp : p < ((σ.docket t).arrived n).length) : ∃ u, t ≤ u ∧ p < (σ.docket u).taken n := by
  by_contra hnever
  have hle : ∀ u, t ≤ u → (σ.docket u).taken n ≤ p := fun u hu => Nat.le_of_not_lt fun hlt => hnever ⟨u, hu, hlt⟩
  obtain ⟨t₁, ht₁, hrest⟩ := settles (t := t) (f := fun u => p - (σ.docket u).taken n) fun u hu =>
    Nat.sub_le_sub_left ((h.extends (Nat.le_succ u)).taken n) p
  have hstuck : ∀ u, t₁ ≤ u → σ.event u ≠ some (.taken n) := by
    intro u hu he
    have hsucc : (σ.docket (u + 1)).taken n = (σ.docket u).taken n + 1 := by
      obtain ⟨s, -, hnext⟩ := Docket.step?_eq_some (h.step u _ he)
      rw [hnext]
      exact Function.update_self ..
    have hhere := hrest u hu
    have hthere := hrest (u + 1) (Nat.le_succ_of_le hu)
    have hle' := hle (u + 1) (Nat.le_succ_of_le (Nat.le_trans ht₁ hu))
    omega
  obtain ⟨t₂, ht₂, hlistens⟩ := h.listens hserves (hopen.mono ht₁)
  have hopen₂ := hopen.mono (Nat.le_trans ht₁ ht₂)
  have hstays : ∀ u, t₂ ≤ u → (σ.docket u).receiving n = .listening := by
    intro u hu
    induction u, hu using Nat.le_induction with
    | base => exact hlistens
    | succ u hu ih =>
      have hturn := h.receiving_turn hopen₂ hu
      rw [ih] at hturn
      generalize hr : (σ.docket (u + 1)).receiving n = r at hturn
      cases hturn with
      | same => rfl
      | left listens =>
        obtain ⟨c, -, hreceiving, hleft⟩ := h.exists_connection hopen₂ (Nat.le_succ_of_le hu)
        exact absurd (hreceiving.symm.trans hr) hleft
      | taken r' event listens => exact absurd event (hstuck u (Nat.le_trans ht₂ hu))
      | refused m r' refuses => cases refuses
      | resumed ticket waits => rfl
  obtain ⟨u, hu, he⟩ := hserves.taken t₂ fun u hu => by
    obtain ⟨c, hc, hreceiving, -⟩ := h.exists_connection hopen₂ hu
    rw [Docket.isSome_step?]
    refine ChannelServer.isSome_taken hc (hreceiving.symm.trans (hstays u hu)) ?_
    rw [(h.sound u).wired.inbound n c hc]
    have hu' := Nat.le_trans (Nat.le_trans ht₁ ht₂) hu
    have hlength := ((h.extends hu').arrived n).length_le
    have hle' := hle u hu'
    exact fun hdrop => absurd (List.drop_eq_nil_iff.mp hdrop) (by omega)
  exact hstuck u (Nat.le_trans ht₂ hu) he

/-! ## The jobs -/

/-- A job on an open channel that has said nothing is about to speak. -/
theorem Runs.exists_silent_job (h : σ.Runs config registry depth) (hopen : σ.StaysOpen l.connection t) (hu : t ≤ u)
    (hl : (σ.docket u).origins[k]? = some l) (hsilent : (σ.docket u).heard l = []) :
    ∃ j, (σ.docket u).server.jobs[k]? = some j ∧ (σ.docket u).JobStands config registry l j ∧
      (∃ m, j.phase.message? = some m) ∧ ∀ p delivered, j.phase ≠ Phase.answered delivered p := by
  obtain ⟨j, hj, hstands⟩ := (h.sound u).answered.exists_job (h.sound u).wired hl
  obtain ⟨text, r, -, -, hspeech⟩ := hstands.speech
  rw [hsilent, hopen u hu] at hspeech
  exact ⟨j, hj, hstands, hspeech.silent⟩

/-- What becomes of a job that sends. -/
theorem Runs.job_of_sent (h : σ.Runs config registry depth) (he : σ.event u = some (.sent k)) {j j' : ChannelJob}
    (hj : (σ.docket u).server.jobs[k]? = some j) (hj' : (σ.docket (u + 1)).server.jobs[k]? = some j') :
    (j.released = false ∧ j'.released = true) ∨ (∃ delivered, j'.phase = j.phase.answered delivered) ∨
      j'.ticket? ≠ none := by
  have hlt := (List.getElem?_eq_some_iff.mp hj).1
  obtain ⟨i, m, hi, -, -, ⟨-, hreleased, hserver⟩ | ⟨-, hserver⟩⟩ := ChannelServer.step?_sent (h.server_step he)
  · rw [hj] at hi
    cases hi
    rw [hserver, List.getElem?_set_self hlt] at hj'
    cases hj'
    exact .inl ⟨hreleased, rfl⟩
  · rw [hj] at hi
    cases hi
    rw [hserver, List.getElem?_set_self hlt] at hj'
    cases hj'
    refine .inr ?_
    cases ((σ.docket u).server.book.send j.channel (σ.docket u).server.nextTicket m.text).1 with
    | queued => exact .inl ⟨true, rfl⟩
    | closed => exact .inl ⟨false, rfl⟩
    | waits => exact .inr nofun

theorem Runs.job_turn (h : σ.Runs config registry depth) {j : ChannelJob}
    (hj : (σ.docket u).server.jobs[k]? = some j) :
    ∃ j', (σ.docket (u + 1)).server.jobs[k]? = some j' ∧ j.Turn j' := by
  cases he : σ.event u with
  | none =>
    rw [h.idle u he]
    exact ⟨j, hj, .same rfl id⟩
  | some e => exact ChannelServer.job_step (h.server_step he) hj

/-- While nothing is said about its letter, a job keeps its message, its place in line, and what it gave back. -/
theorem Runs.silent_turn (h : σ.Runs config registry depth) (hopen : σ.StaysOpen l.connection t) (hu : t ≤ u)
    (hl : (σ.docket (u + 1)).origins[k]? = some l) (hsilent : (σ.docket (u + 1)).heard l = []) {j : ChannelJob}
    (hj : (σ.docket u).server.jobs[k]? = some j) :
    ∃ j', (σ.docket (u + 1)).server.jobs[k]? = some j' ∧
      ((j'.ticket? = j.ticket? ∧ (j.released = true → j'.released = true)) ∨
        (j.ticket? = none ∧ j'.ticket? ≠ none)) := by
  obtain ⟨j', hj', hturn⟩ := h.job_turn hj
  refine ⟨j', hj', ?_⟩
  cases hturn with
  | same ticket released => exact .inl ⟨ticket, released⟩
  | answered delivered phase =>
    obtain ⟨i, hi, -, -, hunanswered⟩ := h.exists_silent_job hopen (Nat.le_succ_of_le hu) hl hsilent
    rw [hj'] at hi
    cases hi
    exact absurd phase (hunanswered _ _)
  | waits before after => exact .inr ⟨before, after⟩

/-- The job for a letter that never hears anything never waits: it would keep its place in line for ever. -/
theorem Runs.job_not_waiting (h : σ.Runs config registry depth) (hserves : σ.Serves l.connection)
    (hopen : σ.StaysOpen l.connection t) (hl : ∀ u, t ≤ u → (σ.docket u).origins[k]? = some l)
    (hsilent : ∀ u, t ≤ u → (σ.docket u).heard l = []) (hu : t ≤ u) {j : ChannelJob}
    (hj : (σ.docket u).server.jobs[k]? = some j) : j.ticket? = none := by
  cases hticket : j.ticket? with
  | none => rfl
  | some x =>
    have hstays : ∀ v, u ≤ v → ∃ j, (σ.docket v).server.jobs[k]? = some j ∧ j.ticket? = some x := by
      intro v hv
      induction v, hv using Nat.le_induction with
      | base => exact ⟨j, hj, hticket⟩
      | succ v hv ih =>
        have hv' := Nat.le_trans hu hv
        obtain ⟨j, hj, hticket⟩ := ih
        obtain ⟨j', hj', ⟨hsame, -⟩ | ⟨hnone, -⟩⟩ := h.silent_turn hopen hv' (hl _ (Nat.le_succ_of_le hv'))
          (hsilent _ (Nat.le_succ_of_le hv')) hj
        · exact ⟨j', hj', hsame.trans hticket⟩
        · rw [hticket] at hnone
          cases hnone
    refine absurd (fun v hv => ?_) (h.not_waiting_forever hserves (hopen.mono hu) (x := x))
    have hv' := Nat.le_trans hu hv
    obtain ⟨j, hj, hticket⟩ := hstays v hv
    obtain ⟨m, -, hw⟩ := ((h.sound v).answered.job k j l hj (hl v hv')).waits x hticket
    exact mem_tickets (h.sound v).mirrored hw (outbound_eq_some (hopen v hv')).1

/-- The job for a letter speaks at some moment. -/
theorem Runs.job_speaks (h : σ.Runs config registry depth) (hserves : σ.Serves l.connection)
    (hopen : σ.StaysOpen l.connection t) (hl : l ∈ (σ.docket t).origins) :
    ∃ u, t ≤ u ∧ (σ.docket u).heard l ≠ [] := by
  by_contra hnever
  have hsilent : ∀ u, t ≤ u → (σ.docket u).heard l = [] := fun u hu =>
    Classical.byContradiction fun hheard => hnever ⟨u, hu, hheard⟩
  obtain ⟨k, hk⟩ := List.mem_iff_getElem?.mp hl
  have horigin : ∀ u, t ≤ u → (σ.docket u).origins[k]? = some l := fun u hu => by
    obtain ⟨more, hmore⟩ := (h.extends hu).origins
    rw [← hmore, List.getElem?_append_left (List.getElem?_eq_some_iff.mp hk).1]
    exact hk
  have hjob := fun u hu => h.exists_silent_job hopen hu (horigin u hu) (hsilent u hu)
  have hfree : ∀ u j, t ≤ u → (σ.docket u).server.jobs[k]? = some j → j.ticket? = none := fun u j hu hj =>
    h.job_not_waiting hserves hopen horigin hsilent hu hj
  have hfair : σ.Fair (.sent k) := by
    obtain ⟨j, hj, hstands, -⟩ := hjob t (Nat.le_refl t)
    exact hserves.sent t k j hj hstands.channel
  -- It sends again and again; each time it can only give back its slot.
  have hsends : ∀ u, t ≤ u → ∃ v j j', u ≤ v ∧ (σ.docket v).server.jobs[k]? = some j ∧
      (σ.docket (v + 1)).server.jobs[k]? = some j' ∧ j.released = false ∧ j'.released = true := by
    intro u hu
    obtain ⟨v, hv, he⟩ := hfair u fun v hv => by
      obtain ⟨j, hj, -, ⟨m, hm⟩, -⟩ := hjob v (Nat.le_trans hu hv)
      rw [Docket.isSome_step?]
      exact ChannelServer.isSome_sent hj (hfree v j (Nat.le_trans hu hv) hj) hm
    have hv' := Nat.le_succ_of_le (Nat.le_trans hu hv)
    obtain ⟨j, hj, -⟩ := hjob v (Nat.le_trans hu hv)
    obtain ⟨j', hj', -, -, hunanswered⟩ := hjob (v + 1) hv'
    rcases h.job_of_sent he hj hj' with ⟨hheld, hreleased⟩ | ⟨delivered, hphase⟩ | hwaits
    · exact ⟨v, j, j', hv, hj, hj', hheld, hreleased⟩
    · exact absurd hphase (hunanswered _ _)
    · exact absurd (hfree _ j' hv' hj') hwaits
  obtain ⟨v, j, j', hv, hj, hj', -, hreleased⟩ := hsends t (Nat.le_refl t)
  have hstays : ∀ w, v + 1 ≤ w → ∃ i, (σ.docket w).server.jobs[k]? = some i ∧ i.released = true := by
    intro w hw
    induction w, hw using Nat.le_induction with
    | base => exact ⟨j', hj', hreleased⟩
    | succ w hw ih =>
      have hw' : t ≤ w := Nat.le_trans (Nat.le_succ_of_le hv) hw
      obtain ⟨i, hi, hreleased⟩ := ih
      obtain ⟨i', hi', ⟨-, hkept⟩ | ⟨-, hwaits⟩⟩ := h.silent_turn hopen hw' (horigin _ (Nat.le_succ_of_le hw'))
        (hsilent _ (Nat.le_succ_of_le hw')) hi
      · exact ⟨i', hi', hkept hreleased⟩
      · exact absurd (hfree _ i' (Nat.le_succ_of_le hw') hi') hwaits
  obtain ⟨w, i, i', hw, hi, -, hheld, -⟩ := hsends (v + 1) (Nat.le_succ_of_le hv)
  obtain ⟨p, hp, hreleased⟩ := hstays w hw
  rw [hi] at hp
  cases hp
  rw [hheld] at hreleased
  cases hreleased

/-- On a channel that stays open every request is answered. -/
theorem Runs.answers (h : σ.Runs config registry depth) (hserves : σ.Serves l.connection)
    (hopen : σ.StaysOpen l.connection t) {text : Bytes} (hl : (σ.docket t).letter? l = some (.request text)) :
    ∃ u, t ≤ u ∧ (σ.docket u).heard l ≠ [] := by
  have harrived : l.place < ((σ.docket t).arrived l.connection).length := (List.getElem?_eq_some_iff.mp hl).1
  obtain ⟨t₁, ht₁, htaken⟩ := h.takes hserves hopen harrived
  obtain ⟨u, hu, hlistens⟩ := h.listens hserves (hopen.mono ht₁)
  have hu' := Nat.le_trans ht₁ hu
  by_cases hjob : l ∈ (σ.docket u).origins
  · obtain ⟨v, hv, hheard⟩ := h.job_speaks hserves (hopen.mono hu') hjob
    exact ⟨v, Nat.le_trans hu' hv, hheard⟩
  · -- The loop is done with the letter, for it listens again.
    refine ⟨u, hu', ?_⟩
    have htaken' := Nat.lt_of_lt_of_le htaken ((h.extends hu).taken l.connection)
    cases (h.sound u).answered.rest l hjob with
    | coming later silent => exact absurd htaken' (Nat.not_lt.mpr later)
    | declining last busy =>
      obtain ⟨c, hc, hbusy, -⟩ := busy
      exact absurd (by simpa [Docket.receiving, hc] using hlistens) hbusy
    | skipped taken silent other => exact absurd ((h.extends hu').letter hl) (other text)
    | declined taken text m request declines said => simp [said]
    | unheard taken silent gone => exact absurd gone (by simp [hopen u hu'])

/-! ## The way out -/

theorem receiving_of_open {o : Outbound} (h : o.closed = false) : o.receiving = true := by
  simp only [Outbound.closed, Bool.or_eq_false_iff, Bool.not_eq_false'] at h
  exact h.2

/-- What the forwarding loop took and what is queued is all that was said. -/
theorem Runs.said_on (h : σ.Runs config registry depth) (hopen : σ.StaysOpen n t) (hu : t ≤ u) :
    ((σ.docket u).forwarded n).filterMap OutFrame.text? ++ ((σ.docket u).outbound n).texts =
      ((σ.docket u).saidOn n).map Message.text := by
  obtain ⟨ho, hclosed⟩ := outbound_eq_some (hopen u hu)
  exact (h.sound u).mirrored.said n _ ho (receiving_of_open hclosed)

/-- The first message in a queue moves up with every frame that is taken out, unless it is taken out itself. -/
theorem Runs.findIdx_queued (h : σ.Runs config registry depth) (hopen : σ.StaysOpen n t) (hu : t ≤ u)
    (htexts : ((σ.docket u).outbound n).texts ≠ [])
    (hrest : (((σ.docket (u + 1)).forwarded n).filterMap OutFrame.text?).length =
      (((σ.docket u).forwarded n).filterMap OutFrame.text?).length) :
    ((σ.docket (u + 1)).outbound n).queued.findIdx (·.text?.isSome) ≤
        ((σ.docket u).outbound n).queued.findIdx (·.text?.isSome) ∧
      (σ.event u = some (.forwarded n) → ((σ.docket (u + 1)).outbound n).queued.findIdx (·.text?.isSome) <
        ((σ.docket u).outbound n).queued.findIdx (·.text?.isSome)) := by
  have hqueued : ((σ.docket u).outbound n).queued ≠ [] := fun hnil => htexts (by rw [Outbound.texts, hnil]; rfl)
  by_cases he : σ.event u = some (.forwarded n)
  · obtain ⟨f, hf, hforwarded⟩ := h.queued_of_forwarded hopen hu he hqueued
    have hnone : f.text? = none := by
      rw [hforwarded, List.filterMap_append, List.length_append] at hrest
      cases hf : f.text? with
      | none => rfl
      | some text => simp [hf] at hrest
    rw [hf, List.findIdx_cons, hnone]
    exact ⟨Nat.le_succ _, fun _ => Nat.lt_succ_self _⟩
  · obtain ⟨ho, hclosed⟩ := outbound_eq_some (hopen (u + 1) (Nat.le_succ_of_le hu))
    rcases (h.flow hopen hu).frames (receiving_of_open hclosed) with ⟨more, hmore⟩ | ⟨hforwarded, -⟩
    · have hfound : ((σ.docket u).outbound n).queued.findIdx (·.text?.isSome) <
          ((σ.docket u).outbound n).queued.length := by
        refine List.findIdx_lt_length_of_exists ?_
        obtain ⟨text, htext⟩ := List.exists_mem_of_ne_nil _ htexts
        obtain ⟨f, hf, hsome⟩ := List.mem_filterMap.mp htext
        exact ⟨f, hf, by simp [hsome]⟩
      rw [hmore, List.findIdx_append, if_pos hfound]
      exact ⟨Nat.le_refl _, fun hforwarded => absurd hforwarded he⟩
    · exact absurd hforwarded he

/-- All that was said gets out of the queue at some moment. -/
theorem Runs.forwards (h : σ.Runs config registry depth) (hserves : σ.Serves n) (hopen : σ.StaysOpen n t) :
    ∃ u, t ≤ u ∧ ((σ.docket t).saidOn n).length ≤ (((σ.docket u).forwarded n).filterMap OutFrame.text?).length := by
  by_contra hnever
  have hless : ∀ u, t ≤ u → (((σ.docket u).forwarded n).filterMap OutFrame.text?).length <
      ((σ.docket t).saidOn n).length := fun u hu => Nat.lt_of_not_le fun hle => hnever ⟨u, hu, hle⟩
  have hgrows : ∀ u, (((σ.docket u).forwarded n).filterMap OutFrame.text?).length ≤
      (((σ.docket (u + 1)).forwarded n).filterMap OutFrame.text?).length := fun u =>
    (((h.extends (Nat.le_succ u)).forwarded n).filterMap _).length_le
  have htexts : ∀ u, t ≤ u → ((σ.docket u).outbound n).texts ≠ [] := by
    intro u hu hnil
    have hsaid := congrArg List.length (h.said_on hopen hu)
    have hlength := ((h.extends hu).saidOn n).length_le
    have hlt := hless u hu
    simp only [hnil, List.append_nil, List.length_map] at hsaid
    omega
  -- From some moment on no message is taken out, and from a later one on no frame at all.
  obtain ⟨t₁, ht₁, hrest⟩ := settles (t := t) (f := fun u => ((σ.docket t).saidOn n).length -
    (((σ.docket u).forwarded n).filterMap OutFrame.text?).length) fun u _ => Nat.sub_le_sub_left (hgrows u) _
  have hsame : ∀ u, t₁ ≤ u → (((σ.docket (u + 1)).forwarded n).filterMap OutFrame.text?).length =
      (((σ.docket u).forwarded n).filterMap OutFrame.text?).length := by
    intro u hu
    have hhere := hrest u hu
    have hthere := hrest (u + 1) (Nat.le_succ_of_le hu)
    have hlt := hless u (Nat.le_trans ht₁ hu)
    have hle := hgrows u
    omega
  have hstep := fun u (hu : t₁ ≤ u) =>
    h.findIdx_queued hopen (Nat.le_trans ht₁ hu) (htexts u (Nat.le_trans ht₁ hu)) (hsame u hu)
  obtain ⟨t₂, ht₂, hfirst⟩ := settles (t := t₁)
    (f := fun u => ((σ.docket u).outbound n).queued.findIdx (·.text?.isSome)) fun u hu => (hstep u hu).1
  obtain ⟨u, hu, he⟩ := hserves.drained t₂ fun u hu hnil =>
    htexts u (Nat.le_trans (Nat.le_trans ht₁ ht₂) hu) (by rw [Outbound.texts, hnil]; rfl)
  have hlt := (hstep u (Nat.le_trans ht₂ hu)).2 he
  have hhere := hfirst u hu
  have hthere := hfirst (u + 1) (Nat.le_succ_of_le hu)
  omega

end Timeline
end FrameStream
