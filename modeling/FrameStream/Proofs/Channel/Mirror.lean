import Mathlib.Data.List.Nodup
import FrameStream.Proofs.Channel.Docket

/-!
# The record and the queues

Whoever waits on a channel waits there under a number of its own, in the order in which the record has it. What the
forwarding loop has taken and what is still queued is together what the record says was said, text by text, as long as
somebody takes frames out at all.
-/

namespace FrameStream
namespace Docket

/-- The record agrees with connections, jobs and channels on how many there are and what came in. -/
structure Wired (d : Docket) : Prop where
  channels : d.server.book.channels.length = d.server.connections.length
  channel : ∀ (n : Nat) (c : Connection), d.server.connections[n]? = some c → c.channel = n
  inbound : ∀ (n : Nat) (c : Connection), d.server.connections[n]? = some c →
    c.inbound = (d.arrived n).drop (d.taken n)
  taken_le : ∀ n, d.taken n ≤ (d.arrived n).length
  beyond : ∀ n, d.server.connections.length ≤ n → d.arrived n = [] ∧ d.forwarded n = []
  origins : d.origins.length = d.server.jobs.length

/-- The record agrees with the queues. -/
structure Mirrored (d : Docket) : Prop where
  tickets : (d.waiters.map (·.ticket)).Nodup
  early : ∀ w ∈ d.waiters, w.ticket < d.server.nextTicket
  waiting : ∀ (n : ChannelNumber) (o : Outbound), d.server.book.channels[n]? = some o →
    o.waiting = (d.waiters.filter (·.letter.connection = n)).map fun w => (w.ticket, w.message.text)
  said : ∀ (n : ChannelNumber) (o : Outbound), d.server.book.channels[n]? = some o → o.receiving = true →
    (d.forwarded n).filterMap OutFrame.text? ++ o.texts = (d.saidOn n).map Message.text

variable {d d' : Docket} {s : ChannelServer} {l : Letter} {m : Message} {n : Nat}

theorem wired_start (config : ServiceConfig) (registry : Registry) (depth : Nat) :
    (start config registry depth).Wired where
  channels := rfl
  channel _ _ h := nomatch h
  inbound _ _ h := nomatch h
  taken_le _ := Nat.le_refl _
  beyond _ _ := ⟨rfl, rfl⟩
  origins := rfl

theorem mirrored_start (config : ServiceConfig) (registry : Registry) (depth : Nat) :
    (start config registry depth).Mirrored where
  tickets := List.nodup_nil
  early _ h := nomatch h
  waiting _ _ h := nomatch h
  said _ _ h := nomatch h

/-! ## Quiet steps -/

/-- Nothing arrives and nothing is taken, and there are as many connections, channels and jobs as before. -/
theorem Wired.congr (h : d.Wired) (harrived : d'.arrived = d.arrived) (htaken : d'.taken = d.taken)
    (hforwarded : ∀ n, d.server.connections.length ≤ n → d'.forwarded n = d.forwarded n)
    (horigins : d'.origins = d.origins)
    (hchannels : d'.server.book.channels.length = d.server.book.channels.length)
    (hconnections : d'.server.connections.length = d.server.connections.length)
    (hconnection : ∀ (n : Nat) (c' : Connection), d'.server.connections[n]? = some c' → ∃ c : Connection,
      d.server.connections[n]? = some c ∧ c'.channel = c.channel ∧ c'.inbound = c.inbound)
    (hjobs : d'.server.jobs.length = d.server.jobs.length) : d'.Wired where
  channels := hchannels.trans (h.channels.trans hconnections.symm)
  channel n c' hc' := by
    obtain ⟨c, hc, hchannel, -⟩ := hconnection n c' hc'
    exact hchannel.trans (h.channel n c hc)
  inbound n c' hc' := by
    obtain ⟨c, hc, -, hinbound⟩ := hconnection n c' hc'
    rw [hinbound, harrived, htaken]
    exact h.inbound n c hc
  taken_le n := by
    rw [harrived, htaken]
    exact h.taken_le n
  beyond n hn := by
    rw [hconnections] at hn
    rw [harrived, hforwarded n hn]
    exact h.beyond n hn
  origins := by rw [horigins, h.origins, hjobs]

theorem Wired.quiet (h : d.Wired) (hq : d.server.Quiet s) : ({ d with server := s } : Docket).Wired := by
  refine h.congr rfl rfl (fun _ _ => rfl) rfl hq.book.length hq.connections (fun n c' hc' => ?_) hq.jobs
  obtain ⟨c, hc, hkeeps⟩ := hq.connection n c' hc'
  exact ⟨c, hc, hkeeps.channel, hkeeps.inbound⟩

/-- Every job was started for a letter. -/
theorem Wired.exists_origin (h : d.Wired) {k : Nat} {j : ChannelJob} (hj : d.server.jobs[k]? = some j) :
    ∃ l, d.origins[k]? = some l :=
  ⟨_, List.getElem?_eq_getElem (h.origins ▸ (List.getElem?_eq_some_iff.mp hj).1)⟩

theorem Mirrored.calm (h : d.Mirrored) (hb : d.server.book.Calm s.book) (ht : d.server.nextTicket ≤ s.nextTicket) :
    ({ d with server := s } : Docket).Mirrored where
  tickets := h.tickets
  early w hw := Nat.lt_of_lt_of_le (h.early w hw) ht
  waiting n o' ho' := by
    obtain ⟨o, ho, hcalm⟩ := hb.each n o' ho'
    exact hcalm.waiting.trans (h.waiting n o ho)
  said n o' ho' hr' := by
    obtain ⟨o, ho, hcalm⟩ := hb.each n o' ho'
    rw [hcalm.texts hr']
    exact h.said n o ho (hcalm.receiving hr').1

/-! ## Messages handed to a queue -/

theorem saidOn_append (h : d'.said = d.said ++ [(l, m)]) (n : ChannelNumber) :
    d'.saidOn n = if l.connection = n then d.saidOn n ++ [m] else d.saidOn n := by
  unfold saidOn
  rw [h]
  by_cases hn : l.connection = n
  · simp [hn]
  · simp [hn]

/-- A message that gets into the queue of its channel is noted as said. -/
theorem Mirrored.said_push (h : d.Mirrored) {o o' : Outbound} (ho : d.server.book.channels[l.connection]? = some o)
    (hbook : d'.server.book = d.server.book.modify l.connection fun _ => o') (hreceiving : o'.receiving = o.receiving)
    (htexts : o'.texts = o.texts ++ [m.text]) (hsaid : d'.said = d.said ++ [(l, m)])
    (hforwarded : d'.forwarded = d.forwarded) :
    ∀ (n : ChannelNumber) (p : Outbound), d'.server.book.channels[n]? = some p → p.receiving = true →
      (d'.forwarded n).filterMap OutFrame.text? ++ p.texts = (d'.saidOn n).map Message.text := by
  rw [hbook, hforwarded]
  refine ChannelBook.forall_set ho (fun hr => ?_) fun n p hn hp hr => ?_
  · rw [saidOn_append hsaid, if_pos rfl, htexts, ← List.append_assoc, h.said _ o ho (hreceiving ▸ hr), List.map_append]
    rfl
  · rw [saidOn_append hsaid, if_neg hn]
    exact h.said n p hp hr

/-- A message that is handed to the queue of its channel is noted as what became of it. -/
theorem Mirrored.handed (h : d.Mirrored)
    (hs : s.book = (d.server.book.send l.connection d.server.nextTicket m.text).2)
    (ht : s.nextTicket = d.server.nextTicket + 1) :
    ({ d.handed l m (d.server.book.send l.connection d.server.nextTicket m.text).1 with server := s } :
      Docket).Mirrored := by
  have hlater : d.server.nextTicket ≤ s.nextTicket := ht ▸ Nat.le_succ _
  cases ho : d.server.book.channels[l.connection]? with
  | none =>
    simp only [ChannelBook.send, ChannelBook.channel?, ho] at hs ⊢
    exact h.calm (.of_channels (by rw [hs])) hlater
  | some o =>
    rw [ChannelBook.send_eq ho] at hs ⊢
    rcases o.send_cases d.server.nextTicket m.text with ⟨-, hsend⟩ | ⟨-, -, hsend⟩ | ⟨-, -, hsend⟩
    · rw [hsend] at hs ⊢
      exact h.calm (hs ▸ ChannelBook.calm_set ho (.refl o)) hlater
    · rw [hsend] at hs ⊢
      refine ⟨h.tickets, fun w hw => Nat.lt_of_lt_of_le (h.early w hw) hlater, ?_,
        h.said_push ho hs rfl (by simp [Outbound.texts, Outbound.push, OutFrame.text?]) rfl rfl⟩
      rw [hs]
      exact ChannelBook.forall_set ho (h.waiting _ o ho) fun n p _ hp => h.waiting n p hp
    · rw [hsend] at hs ⊢
      refine ⟨?_, ?_, ?_, ?_⟩
      · simp only [Docket.handed, List.map_append, List.map_singleton]
        refine List.nodup_append.mpr ⟨h.tickets, List.nodup_singleton _, fun a ha b hb hab => ?_⟩
        obtain ⟨w, hw, rfl⟩ := List.mem_map.mp ha
        have hlt := h.early w hw
        rw [hab, List.mem_singleton.mp hb] at hlt
        exact Nat.lt_irrefl _ hlt
      · intro w hw
        rcases List.mem_append.mp hw with hold | hnew
        · exact Nat.lt_of_lt_of_le (h.early w hold) hlater
        · rw [List.mem_singleton.mp hnew]
          exact ht ▸ Nat.lt_succ_self _
      · rw [hs]
        refine ChannelBook.forall_set ho ?_ fun n p hn hp => ?_
        · simp [h.waiting _ o ho, Docket.handed]
        · simp [hn, h.waiting n p hp, Docket.handed]
      · rw [hs]
        exact ChannelBook.forall_set ho (h.said _ o ho) fun n p _ hp => h.said n p hp

/-! ## Messages that waited -/

/-- No two waiters have the same number. -/
theorem filter_ticket {w : Waiter} : ∀ {ws : List Waiter}, (ws.map (·.ticket)).Nodup → w ∈ ws →
    ws.filter (·.ticket = w.ticket) = [w]
  | [], _, hw => nomatch hw
  | v :: ws, hnodup, hw => by
    obtain ⟨hfirst, hrest⟩ := List.nodup_cons.mp hnodup
    rcases List.mem_cons.mp hw with rfl | hw
    · have hnone : ws.filter (·.ticket = w.ticket) = [] := by
        refine List.filter_eq_nil_iff.mpr fun v hv hticket => hfirst ?_
        exact List.mem_map.mpr ⟨v, hv, by simpa using hticket⟩
      simp [hnone]
    · have hne : v.ticket ≠ w.ticket := fun heq => hfirst (List.mem_map.mpr ⟨w, hw, heq.symm⟩)
      simp [hne, filter_ticket hrest hw]

theorem Mirrored.eq_of_ticket (h : d.Mirrored) {v w : Waiter} (hv : v ∈ d.waiters) (hw : w ∈ d.waiters)
    (hticket : v.ticket = w.ticket) : v = w := by
  have hmem : v ∈ d.waiters.filter (·.ticket = w.ticket) := List.mem_filter.mpr ⟨hv, by simpa using hticket⟩
  rw [filter_ticket h.tickets hw] at hmem
  exact List.mem_singleton.mp hmem

/-- Who has waited longest on a channel is the first that the record has there. -/
theorem Mirrored.exists_waiter (h : d.Mirrored) {o : Outbound} (ho : d.server.book.channels[n]? = some o)
    {ticket : Nat} {text : String} {rest : List (Nat × String)} (hw : o.waiting = (ticket, text) :: rest) :
    ∃ w ∈ d.waiters, w.ticket = ticket ∧ w.message.text = text ∧ w.letter.connection = n ∧
      rest = ((d.waiters.filter (·.ticket ≠ ticket)).filter (·.letter.connection = n)).map
        fun w => (w.ticket, w.message.text) := by
  have hmirror := h.waiting n o ho
  rw [hw] at hmirror
  obtain ⟨w, ws, hfilter, hfirst, hrest⟩ := List.map_eq_cons_iff.mp hmirror.symm
  obtain ⟨rfl, rfl⟩ := Prod.mk.inj hfirst
  have hmem : w ∈ d.waiters.filter (·.letter.connection = n) := hfilter ▸ List.mem_cons_self
  obtain ⟨hw, hn⟩ := List.mem_filter.mp hmem
  refine ⟨w, hw, rfl, rfl, by simpa using hn, ?_⟩
  have hnodup : ((w :: ws).map (·.ticket)).Nodup := by
    rw [← hfilter]
    exact h.tickets.sublist (List.filter_sublist.map _)
  have hothers : ws.filter (·.ticket ≠ w.ticket) = ws := by
    refine List.filter_eq_self.mpr fun v hv => ?_
    have hne : v.ticket ≠ w.ticket := fun heq =>
      (List.nodup_cons.mp hnodup).1 (List.mem_map.mpr ⟨v, hv, heq⟩)
    simpa using hne
  rw [List.filter_comm, hfilter, List.filter_cons_of_neg (by simp), hothers]
  exact hrest.symm

/-- What becomes of the message that has waited longest is noted. -/
theorem Mirrored.resumed (h : d.Mirrored) {o o' : Outbound} {ticket : Nat} {delivered : Bool}
    (ho : d.server.book.channels[n]? = some o) (hresume : o.resume? = some (ticket, delivered, o'))
    (hs : s.book = d.server.book.modify n fun _ => o') (ht : s.nextTicket = d.server.nextTicket) :
    ({ d.answered ticket delivered with server := s } : Docket).Mirrored := by
  obtain ⟨text, rest, hwaiting, hcases⟩ := Outbound.resume?_eq_some.mp hresume
  obtain ⟨w, hw, rfl, rfl, rfl, hrest⟩ := h.exists_waiter ho hwaiting
  have hone := filter_ticket h.tickets hw
  have hrest' : o'.waiting = rest := by
    rcases hcases with ⟨-, -, rfl⟩ | ⟨-, -, -, rfl⟩ <;> rfl
  refine ⟨h.tickets.sublist (List.filter_sublist.map _), fun v hv => ?_, ?_, ?_⟩
  · exact ht ▸ h.early v (List.mem_filter.mp hv).1
  · rw [hs]
    refine ChannelBook.forall_set ho (hrest'.trans hrest) fun n p hn hp => ?_
    rw [h.waiting n p hp]
    -- The waiter that goes on does not wait here.
    have hsame : (d.waiters.filter (·.ticket ≠ w.ticket)).filter (·.letter.connection = n) =
        d.waiters.filter (·.letter.connection = n) := by
      rw [List.filter_comm]
      refine List.filter_eq_self.mpr fun v hv => ?_
      obtain ⟨hv, hvn⟩ := List.mem_filter.mp hv
      have hne : v.ticket ≠ w.ticket := fun heq => hn (h.eq_of_ticket hv hw heq ▸ by simpa using hvn)
      simpa using hne
    exact congrArg _ hsame.symm
  · rcases hcases with ⟨-, rfl, rfl⟩ | ⟨-, -, rfl, rfl⟩
    · have hsaid : ∀ n, ({ d.answered w.ticket false with server := s } : Docket).saidOn n = d.saidOn n := by
        simp [saidOn, answered]
      simp only [hs, hsaid]
      exact ChannelBook.forall_set ho (h.said _ o ho) fun n p _ hp => h.said n p hp
    · exact h.said_push (l := w.letter) (m := w.message) ho hs rfl
        (by simp [Outbound.texts, Outbound.push, OutFrame.text?]) (by simp [answered, hone]) rfl

/-! ## Frames taken out of a queue -/

theorem Mirrored.forwarded (h : d.Mirrored) {o o' : Outbound} {f : OutFrame}
    (ho : d.server.book.channels[n]? = some o) (htake : o.take? = some (f, o'))
    (hs : s.book = d.server.book.modify n fun _ => o') (ht : s.nextTicket = d.server.nextTicket) :
    ({ d with server := s, forwarded := Function.update d.forwarded n (d.forwarded n ++ [f]) } :
      Docket).Mirrored := by
  obtain ⟨rest, hqueued, rfl⟩ := Outbound.take?_eq_some.mp htake
  refine ⟨h.tickets, fun v hv => ht ▸ h.early v hv, ?_, ?_⟩
  · rw [hs]
    exact ChannelBook.forall_set ho (h.waiting n o ho) fun m p _ hp => h.waiting m p hp
  · rw [hs]
    refine ChannelBook.forall_set ho (fun hr => ?_) fun m p hm hp hr => ?_
    · refine Eq.trans ?_ (h.said n o ho hr)
      cases hf : f.text? <;> simp [Outbound.texts, hqueued, hf]
    · simp only [Function.update_of_ne (Ne.symm hm)]
      exact h.said m p hp hr

end Docket
end FrameStream
