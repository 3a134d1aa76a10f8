import FrameStream.Proofs.Channel.Mirror

/-!
# How the queues move

Every step changes the queues in one of five ways. Read for one channel: whoever waits stays in line until the first
goes on, room that came up is kept for those who wait, and frames leave the queue in the order in which they came.
-/

namespace FrameStream

/-- What an event may do to the queues of a book. -/
inductive ChannelBook.Flow (b : ChannelBook) (e : ServerEvent) : ChannelBook → Prop where
  | calm (b' : ChannelBook) (calm : b.Calm b') : Flow b e b'
  | opened (conn : String) : Flow b e (b.openChannel conn).2
  | sent (n : ChannelNumber) (ticket : Nat) (text : String) : Flow b e (b.send n ticket text).2
  | resumed (n : ChannelNumber) (o o' : Outbound) (ticket : Nat) (delivered : Bool) (event : e = .resumed n)
      (at_ : b.channels[n]? = some o) (resume : o.resume? = some (ticket, delivered, o')) :
      Flow b e (b.modify n fun _ => o')
  | taken (n : ChannelNumber) (o o' : Outbound) (f : OutFrame) (event : e = .forwarded n)
      (at_ : b.channels[n]? = some o) (take : o.take? = some (f, o')) : Flow b e (b.modify n fun _ => o')

/-- What an event, or a moment without one, may do to the queue of the channel `n`. -/
inductive Outbound.Flow (o : Outbound) (e : Option ServerEvent) (n : ChannelNumber) : Outbound → Prop where
  | calm (o' : Outbound) (calm : o.Calm o') : Flow o e n o'
  | queued (text : String) (opened : o.closed = false) (room : o.queued.length + o.waiting.length < o.depth) :
      Flow o e n (o.push (.text text))
  | waits (ticket : Nat) (text : String) : Flow o e n { o with waiting := o.waiting ++ [(ticket, text)] }
  | resumed (o' : Outbound) (ticket : Nat) (delivered : Bool) (event : e = some (.resumed n))
      (resume : o.resume? = some (ticket, delivered, o')) : Flow o e n o'
  | taken (o' : Outbound) (f : OutFrame) (event : e = some (.forwarded n)) (take : o.take? = some (f, o')) :
      Flow o e n o'

variable {d : Docket} {s s' : ChannelServer} {b b' : ChannelBook} {o o' : Outbound} {e : ServerEvent}
  {happened : Option ServerEvent} {n : ChannelNumber}

theorem Docket.Wired.flow (h : d.Wired) (hs : d.server.step? e = some s) : d.server.book.Flow e s.book := by
  cases e with
  | accepted conn =>
    rw [ChannelServer.step?_accepted hs]
    exact .opened conn
  | arrived n i =>
    obtain ⟨c, -, rfl⟩ := ChannelServer.step?_arrived hs
    exact .calm _ (.refl _)
  | taken n =>
    obtain ⟨c, i, c', b, job, -, -, htakes, rfl⟩ := ChannelServer.step?_taken hs
    exact .calm b htakes.next_inbound.2.2
  | refused n =>
    obtain ⟨c, m, -, -, rfl⟩ := ChannelServer.step?_refused hs
    exact .sent c.channel _ m.text
  | forwarded n =>
    obtain ⟨c, hc, -, ⟨f, o, o', ho, htake, rfl⟩ | ⟨-, rfl⟩⟩ := ChannelServer.step?_forwarded hs
    · exact .taken c.channel o o' f (by rw [h.channel n c hc]) ho htake
    · exact .calm _ (ChannelServer.calm_stop c _)
  | sent k =>
    obtain ⟨j, m, -, -, -, ⟨-, -, rfl⟩ | ⟨-, rfl⟩⟩ := ChannelServer.step?_sent hs
    · exact .calm _ (d.server.book.calm_endJob j.conn j.id)
    · exact .sent j.channel _ m.text
  | moved k m =>
    obtain ⟨j, -, rfl⟩ := ChannelServer.step?_moved hs
    exact .calm _ (.refl _)
  | resumed n =>
    obtain ⟨o, ticket, delivered, o', ho, hresume, rfl⟩ := ChannelServer.step?_resumed hs
    exact .resumed n o o' ticket delivered rfl ho hresume
  | _ => exact .calm _ (ChannelServer.quiet_step hs rfl).book

/-! ## The queue of one channel -/

namespace ChannelBook

theorem flow_modify {m : ChannelNumber} (ho : b.channels[n]? = some o) (h : m = n → o.Flow (some e) n o') :
    ∃ p, (b.modify m fun _ => o').channels[n]? = some p ∧ o.Flow (some e) n p := by
  by_cases hm : m = n
  · subst hm
    exact ⟨o', modify_self ho, h rfl⟩
  · exact ⟨o, (modify_ne hm).trans ho, .calm o (.refl o)⟩

theorem Flow.queue (h : b.Flow e b') (ho : b.channels[n]? = some o) :
    ∃ o', b'.channels[n]? = some o' ∧ o.Flow (some e) n o' := by
  have hsame : ∀ {m p}, b.channels[m]? = some p → m = n → p = o := by
    rintro m p hp rfl
    exact Option.some.inj (hp.symm.trans ho)
  cases h with
  | calm _ calm =>
    obtain ⟨o', ho', hcalm⟩ := calm.queue ho
    exact ⟨o', ho', .calm o' hcalm⟩
  | opened conn =>
    obtain ⟨b₀, hcalm, -, hchannels⟩ := b.exists_openChannel conn
    obtain ⟨o', ho', hcalm⟩ := hcalm.queue ho
    refine ⟨o', ?_, .calm o' hcalm⟩
    rw [hchannels, List.getElem?_append_left (List.getElem?_eq_some_iff.mp ho').1]
    exact ho'
  | sent m ticket text =>
    cases hp : b.channels[m]? with
    | none =>
      have hsend : (b.send m ticket text).2 = b := by simp [send, channel?, hp]
      exact ⟨o, by rw [hsend]; exact ho, .calm o (.refl o)⟩
    | some p =>
      rw [send_eq hp]
      refine flow_modify ho fun hm => ?_
      obtain rfl := hsame hp hm
      rcases p.send_cases ticket text with ⟨-, hsend⟩ | ⟨hopen, hroom, hsend⟩ | ⟨-, -, hsend⟩
      · exact hsend ▸ .calm p (.refl p)
      · exact hsend ▸ .queued text hopen hroom
      · exact hsend ▸ .waits ticket text
  | resumed m p p' ticket delivered event at_ resume =>
    refine flow_modify ho fun hm => ?_
    obtain rfl := hsame at_ hm
    exact .resumed p' ticket delivered (hm ▸ congrArg some event) resume
  | taken m p p' f event at_ take =>
    refine flow_modify ho fun hm => ?_
    obtain rfl := hsame at_ hm
    exact .taken p' f (hm ▸ congrArg some event) take

/-- Every queue of a book has a place for a frame. -/
def Deep (b : ChannelBook) : Prop := ∀ (n : ChannelNumber) (o : Outbound), b.channels[n]? = some o → 0 < o.depth

end ChannelBook

namespace Outbound

/-- The depth of a queue never changes. -/
theorem Flow.depth (h : o.Flow happened n o') : o'.depth = o.depth := by
  cases h with
  | calm _ calm => exact calm.depth
  | queued text opened room => rfl
  | waits ticket text => rfl
  | resumed _ ticket delivered event resume =>
    obtain ⟨text, rest, -, ⟨-, -, rfl⟩ | ⟨-, -, -, rfl⟩⟩ := resume?_eq_some.mp resume <;> rfl
  | taken _ f event take =>
    obtain ⟨rest, -, rfl⟩ := take?_eq_some.mp take
    rfl

/-- Whoever waits stays in line until the first goes on. -/
theorem Flow.tickets (h : o.Flow happened n o') :
    (∃ more, o'.tickets = o.tickets ++ more) ∨
      (happened = some (.resumed n) ∧ ∃ first, o.tickets = first :: o'.tickets) := by
  cases h with
  | calm _ calm => exact .inl ⟨[], by simp [Outbound.tickets, calm.waiting]⟩
  | queued text opened room => exact .inl ⟨[], (List.append_nil _).symm⟩
  | waits ticket text => exact .inl ⟨[ticket], by simp [Outbound.tickets]⟩
  | resumed _ ticket delivered event resume => exact .inr ⟨event, ticket, tickets_of_resume? resume⟩
  | taken _ f event take =>
    obtain ⟨rest, -, rfl⟩ := take?_eq_some.mp take
    exact .inl ⟨[], (List.append_nil _).symm⟩

/-- Nothing takes the room of those who wait. -/
theorem Flow.room (h : o.Flow happened n o') : o'.queued.length ≤ o.queued.length ∨
    o'.queued.length + o'.waiting.length ≤ o'.depth ∨ happened = some (.resumed n) := by
  cases h with
  | calm _ calm => exact calm.room.imp_right .inl
  | queued text opened room => exact .inr (.inl (by simp only [push, List.length_append, List.length_singleton]; omega))
  | waits ticket text => exact .inl (Nat.le_refl _)
  | resumed _ ticket delivered event resume => exact .inr (.inr event)
  | taken _ f event take =>
    obtain ⟨rest, hqueued, rfl⟩ := take?_eq_some.mp take
    exact .inl (by simp [hqueued])

/-- Frames come in at the end of a queue, and the first is taken out. -/
theorem Flow.frames (h : o.Flow happened n o') (hr : o'.receiving = true) :
    (∃ more, o'.queued = o.queued ++ more) ∨
      (happened = some (.forwarded n) ∧ ∃ f, o.queued = f :: o'.queued) := by
  cases h with
  | calm _ calm =>
    obtain ⟨-, more, hqueued, -⟩ := calm.receiving hr
    exact .inl ⟨more, hqueued⟩
  | queued text opened room => exact .inl ⟨[.text text], rfl⟩
  | waits ticket text => exact .inl ⟨[], (List.append_nil _).symm⟩
  | resumed _ ticket delivered event resume =>
    obtain ⟨text, rest, hwaiting, ⟨-, -, rfl⟩ | ⟨-, -, -, rfl⟩⟩ := resume?_eq_some.mp resume
    · exact .inl ⟨[], (List.append_nil _).symm⟩
    · exact .inl ⟨[.text text], rfl⟩
  | taken _ f event take =>
    obtain ⟨rest, hqueued, rfl⟩ := take?_eq_some.mp take
    exact .inr ⟨event, f, hqueued⟩

theorem idle_of_open (h : o.closed = false) : o.Idle := fun hr => by
  rw [closed, hr, Bool.not_false, Bool.or_true] at h
  cases h

theorem Flow.idle (h : o.Flow happened n o') (hidle : o.Idle) : o'.Idle := by
  cases h with
  | calm _ calm => exact calm.idle hidle
  | queued text opened room => exact idle_of_open opened
  | waits ticket text => exact hidle
  | resumed _ ticket delivered event resume =>
    obtain ⟨text, rest, -, ⟨-, -, rfl⟩ | ⟨hopen, -, -, rfl⟩⟩ := resume?_eq_some.mp resume
    · exact hidle
    · exact idle_of_open hopen
  | taken _ f event take =>
    obtain ⟨rest, hqueued, rfl⟩ := take?_eq_some.mp take
    intro hr
    rw [hidle hr] at hqueued
    cases hqueued

end Outbound

namespace ChannelBook

/-- What holds of the queue of a new channel, and is kept whatever happens to a queue, is kept by a step. -/
theorem Flow.keeps {P : Outbound → Prop} (h : b.Flow e b') (hfresh : P { Outbound.ofDepth b.depth with senders := 2 })
    (hkeeps : ∀ {o o' : Outbound} {n : ChannelNumber}, o.Flow (some e) n o' → P o → P o')
    (hall : ∀ (n : ChannelNumber) (o : Outbound), b.channels[n]? = some o → P o) :
    ∀ (n : ChannelNumber) (o : Outbound), b'.channels[n]? = some o → P o := by
  intro n o' ho'
  cases ho : b.channels[n]? with
  | some o =>
    obtain ⟨p, hp, hflow⟩ := h.queue ho
    rw [ho'] at hp
    cases hp
    exact hkeeps hflow (hall n o ho)
  | none =>
    have hbeyond : b.channels.length ≤ n := List.getElem?_eq_none_iff.mp ho
    have hlt : n < b'.channels.length := (List.getElem?_eq_some_iff.mp ho').1
    cases h with
    | calm _ calm => exact absurd (calm.length ▸ hlt) (Nat.not_lt.mpr hbeyond)
    | opened conn =>
      obtain ⟨b₀, hcalm, -, hchannels⟩ := b.exists_openChannel conn
      rw [hchannels] at ho'
      rcases getElem?_concat_eq_some ho' with hold | ⟨-, rfl⟩
      · exact absurd (List.getElem?_eq_some_iff.mp hold).1 (Nat.not_lt.mpr (hcalm.length ▸ hbeyond))
      · exact hfresh
    | sent m ticket text => exact absurd (length_send b m ticket text ▸ hlt) (Nat.not_lt.mpr hbeyond)
    | resumed m p p' ticket delivered event at_ resume =>
      exact absurd (by simpa [modify] using hlt) (Nat.not_lt.mpr hbeyond)
    | taken m p p' f event at_ take => exact absurd (by simpa [modify] using hlt) (Nat.not_lt.mpr hbeyond)

theorem Flow.deep (h : b.Flow e b') (hdeep : b.Deep) : b'.Deep :=
  h.keeps (Nat.lt_of_lt_of_le Nat.zero_lt_one (Nat.le_max_right _ _)) (fun hflow ho => hflow.depth ▸ ho) hdeep

/-- Nothing is in a queue from which nobody takes anything. -/
def Idle (b : ChannelBook) : Prop := ∀ (n : ChannelNumber) (o : Outbound), b.channels[n]? = some o → o.Idle

theorem Flow.idle (h : b.Flow e b') (hidle : b.Idle) : b'.Idle := h.keeps (fun _ => rfl) Outbound.Flow.idle hidle

end ChannelBook
end FrameStream
