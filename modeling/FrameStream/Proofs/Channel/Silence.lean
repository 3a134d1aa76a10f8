import FrameStream.Proofs.Channel.Tally

/-!
# A cancelled channel is silent

A send returns well in the very event that puts its message into the queue, and only while the channel is open; it is
turned away only when the channel is closed. Once a channel is cancelled it stays so, whatever else happens: no message
gets into its queue, and every send on it, also one that has waited, returns at its next chance and is turned away,
however much room there is. Pings and closing frames are queued in one event, behind everything that is queued.
-/

namespace FrameStream

namespace Traffic

variable {t t' : Traffic} {e : TrafficEvent} {es : List TrafficEvent} {n : ChannelNumber} {o o' : Outbound} {k : Nat}
  {depth : Nat}

/-- A send returns, well or turned away. -/
def Returns (t t' : Traffic) (k : Nat) (ok : Bool) : Prop := t'.returned = t.returned ++ [(k, ok)]

/-- A message gets into the queue of a channel, behind what is queued. -/
def Pushes (t t' : Traffic) (n : ChannelNumber) (m : Message) : Prop :=
  ∃ o o', t.book.channels[n]? = some o ∧ t'.book.channels[n]? = some o' ∧ o'.queued = o.queued ++ [.text m.text]

/-- No message gets into the queue of a channel; some may be taken out. -/
def PushesNone (t t' : Traffic) (n : ChannelNumber) : Prop :=
  ∀ o o', t.book.channels[n]? = some o → t'.book.channels[n]? = some o' → o'.texts <:+ o.texts

/-- The answers that sends get in one event tell what happens to their messages. -/
structure Truthful (t t' : Traffic) : Prop where
  ok : ∀ k, t.Returns t' k true →
    ∃ n m, t'.sends[k]? = some (n, m) ∧ t.book.closed n = false ∧ t.Pushes t' n m
  turnedAway : ∀ k, t.Returns t' k false →
    ∃ n m, t'.sends[k]? = some (n, m) ∧ t.book.closed n = true ∧ t.PushesNone t' n
  /-- Only a send that returns well puts its message into a queue. -/
  none : ∀ n, (∀ k m, t.Returns t' k true → t'.sends[k]? ≠ some (n, m)) → t.PushesNone t' n

/-! ## One event -/

theorem returns_inj {k k' : Nat} {ok ok' : Bool} (h : t.Returns t' k ok) (h' : t.Returns t' k' ok') :
    k = k' ∧ ok = ok' := by
  rw [Returns, h, List.append_cancel_left_eq] at h'
  cases h'
  exact ⟨rfl, rfl⟩

theorem not_returns (h : t'.returned = t.returned) (k : Nat) (ok : Bool) : ¬ t.Returns t' k ok := by
  intro hreturns
  rw [Returns, h, List.self_eq_append_right] at hreturns
  cases hreturns

/-- A channel whose queue holds no more messages than before, or that is not the one whose queue changes. -/
theorem pushesNone_set {c : ChannelNumber} (ho : t.book.channels[c]? = some o)
    (hbook : t'.book = t.book.modify c fun _ => o') (h : c = n → o'.texts <:+ o.texts) : t.PushesNone t' n := by
  intro p p' hp hp'
  rw [hbook] at hp'
  by_cases hc : c = n
  · subst hc
    rw [ChannelBook.modify_self ho, Option.some.injEq] at hp'
    rw [ho, Option.some.injEq] at hp
    rw [← hp, ← hp']
    exact h rfl
  · rw [ChannelBook.modify_ne hc, hp, Option.some.injEq] at hp'
    exact hp' ▸ List.suffix_refl _

theorem closed_eq (ho : t.book.channels[n]? = some o) : t.book.closed n = o.closed := by
  simp only [ChannelBook.closed, ChannelBook.channel?, ho]

theorem truthful_none (hreturned : t'.returned = t.returned) (h : ∀ n, t.PushesNone t' n) : t.Truthful t' where
  ok k hk := (not_returns hreturned k true hk).elim
  turnedAway k hk := (not_returns hreturned k false hk).elim
  none n _ := h n

theorem truthful_false {m : Message} (hreturns : t.Returns t' k false) (hk : t'.sends[k]? = some (n, m))
    (hclosed : t.book.closed n = true) (h : ∀ n, t.PushesNone t' n) : t.Truthful t' where
  ok k' hk' := by cases (returns_inj hreturns hk').2
  turnedAway k' hk' := (returns_inj hreturns hk').1 ▸ ⟨n, m, hk, hclosed, h n⟩
  none n _ := h n

theorem truthful_true {m : Message} (hreturns : t.Returns t' k true) (hk : t'.sends[k]? = some (n, m))
    (ho : t.book.channels[n]? = some o) (hopen : o.closed = false) (hbook : t'.book = t.book.modify n fun _ => o')
    (hqueued : o'.queued = o.queued ++ [.text m.text]) : t.Truthful t' where
  ok k' hk' := by
    obtain ⟨rfl, -⟩ := returns_inj hreturns hk'
    refine ⟨n, m, hk, (closed_eq ho).trans hopen, o, o', ho, ?_, hqueued⟩
    rw [hbook, ChannelBook.modify_self ho]
  turnedAway k' hk' := by cases (returns_inj hreturns hk').2
  none c hc := pushesNone_set ho hbook fun heq => absurd (heq ▸ hk) (hc k m hreturns)

theorem pushesNone_calm (h : t.Sound) {book : ChannelBook} (hcalm : t.book.Calm book) (n : ChannelNumber) :
    t.PushesNone { t with book } n := by
  intro o o' ho ho'
  obtain ⟨p, hp, hqueue⟩ := hcalm.each n o' ho'
  rw [ho] at hp
  cases hp
  cases hr : o'.receiving with
  | true =>
    exact hqueue.texts hr ▸ List.suffix_refl _
  | false =>
    have hempty : o'.queued = [] := hqueue.idle (h.agrees n o ho).idle hr
    rw [Outbound.texts, hempty]
    exact List.nil_suffix

theorem pushesNone_opened (h : t.Sound) (conn : String) (n : ChannelNumber) :
    t.PushesNone { t with book := (t.book.openChannel conn).2 } n := by
  intro o o' ho ho'
  obtain ⟨b, hcalm, -, hchannels⟩ := t.book.exists_openChannel conn
  have hn := (List.getElem?_eq_some_iff.mp ho).1
  rw [hchannels, List.getElem?_append_left (hcalm.length.symm ▸ hn)] at ho'
  exact pushesNone_calm h hcalm n o o' ho ho'

theorem Sound.truthful (h : t.Sound) (hs : t.step? e = some t') : t.Truthful t' := by
  have hsame : ∀ (t' : Traffic) (n : ChannelNumber), t'.book = t.book → t.PushesNone t' n := by
    intro t' n hbook o o' ho ho'
    rw [hbook, ho] at ho'
    cases ho'
    exact List.suffix_refl _
  cases step?_change hs with
  | calm book calm depth => exact truthful_none rfl fun n => pushesNone_calm h calm n
  | opened conn => exact truthful_none rfl fun n => pushesNone_opened h conn n
  | turnedAway n m o at_ closed =>
    exact truthful_false rfl List.getElem?_concat_length ((closed_eq at_).trans closed) fun n => hsame _ n rfl
  | queued n m o at_ opened room => exact truthful_true rfl List.getElem?_concat_length at_ opened rfl rfl
  | waits n m o at_ opened =>
    exact truthful_none rfl fun c => pushesNone_set at_ rfl fun _ => List.suffix_refl _
  | refused n place k text o at_ waited closed =>
    obtain ⟨m, hm, -⟩ := (h.agrees n o at_).line.sent _ (List.mem_of_getElem? waited)
    exact truthful_false rfl hm ((closed_eq at_).trans closed)
      fun c => pushesNone_set at_ rfl fun _ => List.suffix_refl _
  | admitted n place k text o at_ waited opened room =>
    obtain ⟨m, hm, htext⟩ := (h.agrees n o at_).line.sent _ (List.mem_of_getElem? waited)
    exact truthful_true rfl hm at_ opened rfl (by rw [← htext]; rfl)
  | received n f rest o at_ first =>
    refine truthful_none rfl fun c => pushesNone_set at_ rfl fun _ => ?_
    rw [Outbound.texts, Outbound.texts, first]
    exact (List.suffix_cons f rest).filterMap _

/-! ## After a channel is cancelled -/

theorem cancelled_step (h : t.book.Cancelled n) (hs : t.step? e = some t') : t'.book.Cancelled n := by
  cases step?_change hs with
  | calm book calm depth => exact h.calm calm
  | opened conn => exact h.opened conn
  | turnedAway n m o at_ closed => exact h
  | queued n m o at_ opened room => exact h.set at_ rfl
  | waits n m o at_ opened => exact h.set at_ rfl
  | refused n place k text o at_ waited closed => exact h.set at_ rfl
  | admitted n place k text o at_ waited opened room => exact h.set at_ rfl
  | received n f rest o at_ first => exact h.set at_ rfl

/-- The record only grows, by one send and one answer at most. -/
theorem record_step (hs : t.step? e = some t') : t.sends <+: t'.sends ∧
    (t'.returned = t.returned ∨ ∃ k ok, t.Returns t' k ok) := by
  cases step?_change hs with
  | calm book calm depth => exact ⟨List.prefix_rfl, .inl rfl⟩
  | opened conn => exact ⟨List.prefix_rfl, .inl rfl⟩
  | turnedAway n m o at_ closed => exact ⟨List.prefix_append _ _, .inr ⟨_, _, rfl⟩⟩
  | queued n m o at_ opened room => exact ⟨List.prefix_append _ _, .inr ⟨_, _, rfl⟩⟩
  | waits n m o at_ opened => exact ⟨List.prefix_append _ _, .inl rfl⟩
  | refused n place k text o at_ waited closed => exact ⟨List.prefix_rfl, .inr ⟨_, _, rfl⟩⟩
  | admitted n place k text o at_ waited opened room => exact ⟨List.prefix_rfl, .inr ⟨_, _, rfl⟩⟩
  | received n f rest o at_ first => exact ⟨List.prefix_rfl, .inl rfl⟩

theorem sends_run (hr : t.run? es = some t') : t.sends <+: t'.sends := by
  induction es generalizing t with
  | nil =>
    cases hr
    exact List.prefix_rfl
  | cons e es ih =>
    rw [run?_cons] at hr
    obtain ⟨u, hu, hr⟩ := Option.bind_eq_some_iff.mp hr
    exact (record_step hu).1.trans (ih hr)

/-- Nothing gets through a channel from one moment to a later one. -/
structure Silent (t t' : Traffic) (n : ChannelNumber) : Prop where
  cancelled : t'.book.Cancelled n
  none : t.PushesNone t' n
  delivered : t'.deliveredOn n = t.deliveredOn n
  /-- No send returns well that had not. -/
  refused : ∀ k m, t'.sends[k]? = some (n, m) → (k, true) ∈ t'.returned → (k, true) ∈ t.returned

theorem Sound.silent_step (h : t.Sound) (hc : t.book.Cancelled n) (hs : t.step? e = some t') : t.Silent t' n := by
  have htruthful := h.truthful hs
  obtain ⟨hsends, hreturned⟩ := record_step hs
  have hnever : ∀ k m, t.Returns t' k true → t'.sends[k]? ≠ some (n, m) := by
    intro k m hreturns hk
    obtain ⟨c, m', hk', hopen, -⟩ := htruthful.ok k hreturns
    rw [hk, Option.some.injEq, Prod.mk.injEq] at hk'
    rw [← hk'.1, hc.closed] at hopen
    cases hopen
  refine ⟨cancelled_step hc hs, htruthful.none n hnever, ?_, fun k m hk hmem => ?_⟩
  · rcases hreturned with hreturned | ⟨k, ok, hreturned⟩
    · exact deliveredOn_none h.known hsends hreturned
    · cases ok with
      | false => exact deliveredOn_false h.known hsends hreturned
      | true =>
        have hnone : t'.textOn? n k = Option.none := by
          cases htext : t'.textOn? n k with
          | none => rfl
          | some text =>
            obtain ⟨m, hm, -⟩ := textOn?_eq_some.mp htext
            exact absurd hm (hnever k m hreturned)
        rw [deliveredOn_append h.known hsends hreturned]
        simp [hnone]
  · rcases hreturned with hreturned | ⟨k', ok, hreturned⟩
    · rwa [hreturned] at hmem
    · rw [hreturned, List.mem_append, List.mem_singleton] at hmem
      refine hmem.resolve_right fun heq => ?_
      cases heq
      exact hnever k m hreturned hk

/-- A cancelled channel stays cancelled, and nothing gets through it any more. -/
theorem Sound.silent_run (h : t.Sound) (hc : t.book.Cancelled n) (hr : t.run? es = some t') : t.Silent t' n := by
  induction es generalizing t with
  | nil =>
    cases hr
    refine ⟨hc, fun o o' ho ho' => ?_, rfl, fun _ _ _ hmem => hmem⟩
    rw [ho, Option.some.injEq] at ho'
    exact ho' ▸ List.suffix_refl _
  | cons e es ih =>
    rw [run?_cons] at hr
    obtain ⟨u, hu, hr⟩ := Option.bind_eq_some_iff.mp hr
    have hfirst := h.silent_step hc hu
    have hrest := ih (h.step hu) hfirst.cancelled hr
    refine ⟨hrest.cancelled, fun o o' ho ho' => ?_, hrest.delivered.trans hfirst.delivered, fun k m hk hmem => ?_⟩
    · obtain ⟨p, hp, -⟩ := hfirst.cancelled
      exact (hrest.none p o' hp ho').trans (hfirst.none o p ho hp)
    · have hu' := hrest.refused k m hk hmem
      have hsent : u.sends[k]? = some (n, m) := by
        have hlt := (h.step hu).known _ hu'
        obtain ⟨more, hmore⟩ := sends_run hr
        rwa [← hmore, List.getElem?_append_left hlt] at hk
      exact hfirst.refused k m hsent hu'

/-- Every send on a cancelled channel is turned away: a new one at once, and one that waits from whatever place. -/
structure TurnsAway (t : Traffic) (n : ChannelNumber) : Prop where
  later : ∀ m, ∃ t', t.step? (.sent n m) = some t' ∧ t.Returns t' t.sends.length false
  pending : ∀ (o : Outbound) (place k : Nat) (text : String), t.book.channels[n]? = some o →
    o.waiting[place]? = some (k, text) → ∃ t', t.step? (.resumed n place) = some t' ∧ t.Returns t' k false

theorem turnsAway_of_cancelled (h : t.book.Cancelled n) : t.TurnsAway n := by
  obtain ⟨p, hp, hc⟩ := h
  have hclosed : p.closed = true := by rw [Outbound.closed, hc, Bool.true_or]
  constructor
  · intro m
    have hn := (List.getElem?_eq_some_iff.mp hp).1
    refine ⟨t.send n m, if_pos hn, ?_⟩
    have hanswer := (t.book.send_closed_iff n t.sends.length m.text).mpr ((closed_eq hp).trans hclosed)
    rw [Returns, send, hanswer, answer]
  · intro o place k text ho hwaited
    rw [ho, Option.some.injEq] at hp
    subst hp
    have hresume := Outbound.resumeAt?_eq_some.mpr ⟨text, hwaited, .inl ⟨hclosed, rfl, rfl⟩⟩
    refine ⟨{ t with
      book := t.book.modify n fun _ => { o with waiting := o.waiting.eraseIdx place }
      returned := t.returned ++ [(k, false)] }, ?_, rfl⟩
    simp only [step?, ChannelBook.channel?, ho, hresume, Option.map_some]

/-! ## Pings and closing frames -/

/-- An event queues frames of one kind at most, behind those that are queued, and changes no line and no record. -/
def Offers (t : Traffic) (e : TrafficEvent) (f : OutFrame) : Prop :=
  ∃ t', t.step? e = some t' ∧ t'.sends = t.sends ∧ t'.returned = t.returned ∧ t'.received = t.received ∧
    ∀ (n : ChannelNumber) (o : Outbound), t.book.channels[n]? = some o →
      ∃ o', t'.book.channels[n]? = some o' ∧ o'.waiting = o.waiting ∧
        ∃ more, o'.queued = o.queued ++ more ∧ ∀ g ∈ more, g = f

theorem queued_modifyOpen {b : ChannelBook} {f : OutFrame} {change : Outbound → Outbound}
    (hwaiting : ∀ o, (change o).waiting = o.waiting)
    (hqueued : ∀ o, (change o).queued = o.queued ∨ (change o).queued = o.queued ++ [f])
    (ho : b.channels[n]? = some o) : ∃ o', (b.modifyOpen change).channels[n]? = some o' ∧ o'.waiting = o.waiting ∧
      ∃ more, o'.queued = o.queued ++ more ∧ ∀ g ∈ more, g = f := by
  refine ChannelBook.modifyOpen_induction (P := fun b' => ∃ o', b'.channels[n]? = some o' ∧ o'.waiting = o.waiting ∧
    ∃ more, o'.queued = o.queued ++ more ∧ ∀ g ∈ more, g = f) (fun b' c h => ?_)
    ⟨o, ho, rfl, [], (List.append_nil _).symm, fun _ hg => nomatch hg⟩
  obtain ⟨o', ho', hline, more, hmore, hall⟩ := h
  by_cases hc : c = n
  · subst hc
    refine ⟨change o', ChannelBook.modify_self ho', (hwaiting o').trans hline, ?_⟩
    rcases hqueued o' with hsame | hone
    · exact ⟨more, hsame.trans hmore, hall⟩
    · refine ⟨more ++ [f], by rw [hone, hmore, List.append_assoc], fun g hg => ?_⟩
      rcases List.mem_append.mp hg with hg | hg
      · exact hall g hg
      · exact List.mem_singleton.mp hg
  · exact ⟨o', by rw [ChannelBook.modify_ne hc, ho'], hline, more, hmore, hall⟩

theorem queued_offer (o : Outbound) (f : OutFrame) :
    (o.offer f).queued = o.queued ∨ (o.offer f).queued = o.queued ++ [f] := by
  unfold Outbound.offer
  split
  · exact .inr rfl
  · exact .inl rfl

theorem waiting_offer (o : Outbound) (f : OutFrame) : (o.offer f).waiting = o.waiting := by
  unfold Outbound.offer
  split <;> rfl

theorem offers_pinged (t : Traffic) : t.Offers .pinged .ping :=
  ⟨_, rfl, rfl, rfl, rfl, fun _ _ ho =>
    queued_modifyOpen (waiting_offer · .ping) (queued_offer · .ping) ho⟩

theorem offers_shutDown (t : Traffic) : t.Offers .shutDown .close :=
  ⟨_, rfl, rfl, rfl, rfl, fun _ _ ho =>
    queued_modifyOpen (fun o => waiting_offer o .close) (fun o => queued_offer o .close) ho⟩

/-! ## Every run -/

theorem depth_step (hs : t.step? e = some t') : t'.book.depth = t.book.depth := by
  cases step?_change hs with
  | calm book calm depth => exact depth
  | opened conn => exact t.book.depth_openChannel conn
  | _ => rfl

theorem depth_run (hr : t.run? es = some t') : t'.book.depth = t.book.depth := by
  induction es generalizing t with
  | nil =>
    cases hr
    rfl
  | cons e es ih =>
    rw [run?_cons] at hr
    obtain ⟨u, hu, hr⟩ := Option.bind_eq_some_iff.mp hr
    exact (ih hr).trans (depth_step hu)

/-- Queues of any depth are bounded, keep their order and lose nothing; sends are told the truth; and a channel is
silent once it is cancelled. -/
theorem queues_bounded_ordered_silent (h : (start depth).run? es = some t) :
    (∀ n o, t.book.channels[n]? = some o → o.queued.length ≤ max depth 1 ∧
      (o.receiving = true → t.receivedOn n ++ o.texts = t.deliveredOn n)) ∧
    (t.answered.Nodup ∧ ∀ k n m, t.sends[k]? = some (n, m) → k ∉ t.answered →
      ∃ o, t.book.channels[n]? = some o ∧ (k, m.text) ∈ o.waiting) ∧
    (∀ e t', t.step? e = some t' → t.Truthful t') ∧
    (∀ n, t.book.Cancelled n → ∀ fs t', t.run? fs = some t' →
      t.Silent t' n ∧ t'.book.closed n = true ∧ t'.TurnsAway n) ∧
    t.Offers .pinged .ping ∧ t.Offers .shutDown .close := by
  have hsound := sound_run (sound_start depth) h
  refine ⟨fun n o ho => ?_, ⟨hsound.once, fun k n m hk hopen => ?_⟩, fun e t' hs => hsound.truthful hs,
    fun n hc fs t' hr => ?_, t.offers_pinged, t.offers_shutDown⟩
  · have hagrees := hsound.agrees n o ho
    have hdepth : o.depth = max depth 1 := hagrees.depth.trans (depth_run h)
    exact ⟨hdepth ▸ hagrees.bounded, hagrees.texts⟩
  · have hn := hsound.channel _ (List.mem_of_getElem? hk)
    have ho := List.getElem?_eq_getElem hn
    exact ⟨_, ho, (hsound.agrees n _ ho).line.waits k m hk hopen⟩
  · have hsilent := hsound.silent_run hc hr
    exact ⟨hsilent, hsilent.cancelled.closed, turnsAway_of_cancelled hsilent.cancelled⟩

/-- The queue has one place: the second and the third message wait, and the second gets through before the channel is
cancelled. -/
theorem queues_bounded_ordered_silent_waiting : ∃ t, (start 0).run? [.opened "c", .sent 0 (.accepted "a"),
      .sent 0 (.accepted "b"), .sent 0 (.accepted "c"), .received 0, .resumed 0 0, .cancelled 0] = some t ∧
    t.deliveredOn 0 = [(Message.accepted "a").text, (Message.accepted "b").text] ∧ t.TurnsAway 0 ∧
    ∀ fs t', t.run? fs = some t' → t'.deliveredOn 0 = t.deliveredOn 0 := by
  have hrun : ∃ t, (start 0).run? [.opened "c", .sent 0 (.accepted "a"), .sent 0 (.accepted "b"),
        .sent 0 (.accepted "c"), .received 0, .resumed 0 0, .cancelled 0] = some t ∧
      t.deliveredOn 0 = [(Message.accepted "a").text, (Message.accepted "b").text] ∧ t.book.Cancelled 0 :=
    ⟨_, rfl, rfl, _, rfl, rfl⟩
  obtain ⟨t, hrun, hdelivered, hcancelled⟩ := hrun
  have hsilent := (queues_bounded_ordered_silent hrun).2.2.2.1 0 hcancelled
  exact ⟨t, hrun, hdelivered, (hsilent [] t rfl).2.2, fun fs t' hr => (hsilent fs t' hr).1.delivered⟩

end Traffic
end FrameStream
