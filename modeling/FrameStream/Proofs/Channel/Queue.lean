import FrameStream.Proofs.Channel.Holder
import FrameStream.Proofs.NameTable

/-!
# What happens to a queue

A change is calm if it neither puts a message into a queue nor takes one out, unless it closes the channel. Pings and
closing frames are such changes: they get in only if all who wait will still find room.

The place of a message is the number of those that wait before it; what stands in its way besides are the frames that
must be written before it finds room.
-/

namespace FrameStream

/-- The text of a frame that carries a message. -/
def OutFrame.text? : OutFrame → Option String
  | .text t => some t
  | _ => none

namespace Outbound

/-- The texts of the messages in the queue, in order. -/
def texts (o : Outbound) : List String := o.queued.filterMap OutFrame.text?

/-- The numbers under which messages wait, in order. -/
def tickets (o : Outbound) : List Nat := o.waiting.map (·.1)

variable {o o' o'' : Outbound} {ticket : Nat} {text : String} {f : OutFrame}

/-- A queue from which nobody takes anything is empty. -/
def Idle (o : Outbound) : Prop := o.receiving = false → o.queued = []

/-! ## Calm changes -/

structure Calm (o o' : Outbound) : Prop where
  depth : o'.depth = o.depth
  waiting : o'.waiting = o.waiting
  cancelled : o.cancelled = true → o'.cancelled = true
  /-- No message comes in or goes out, unless the queue is given up. -/
  receiving : o'.receiving = true → o.receiving = true ∧
    ∃ more, o'.queued = o.queued ++ more ∧ more.filterMap OutFrame.text? = []
  /-- Whatever comes in leaves room for all who wait. -/
  room : o'.queued.length ≤ o.queued.length ∨ o'.queued.length + o'.waiting.length ≤ o'.depth
  idle : o.Idle → o'.Idle

theorem Calm.refl (o : Outbound) : o.Calm o where
  depth := rfl
  waiting := rfl
  cancelled h := h
  receiving h := ⟨h, [], (List.append_nil _).symm, rfl⟩
  room := .inl (Nat.le_refl _)
  idle h := h

theorem Calm.trans (h : o.Calm o') (h' : o'.Calm o'') : o.Calm o'' where
  depth := h'.depth.trans h.depth
  waiting := h'.waiting.trans h.waiting
  cancelled hc := h'.cancelled (h.cancelled hc)
  receiving hr := by
    obtain ⟨hr', more', hqueued', hnone'⟩ := h'.receiving hr
    obtain ⟨hr, more, hqueued, hnone⟩ := h.receiving hr'
    refine ⟨hr, more ++ more', by rw [hqueued', hqueued, List.append_assoc], ?_⟩
    rw [List.filterMap_append, hnone, hnone', List.append_nil]
  room := by
    have hdepth := h'.depth
    have hwaiting := congrArg List.length h'.waiting
    have hfirst := h.room
    have hsecond := h'.room
    omega
  idle hi := h'.idle (h.idle hi)

theorem Calm.texts (h : o.Calm o') (hr : o'.receiving = true) : o'.texts = o.texts := by
  obtain ⟨-, more, hqueued, hnone⟩ := h.receiving hr
  rw [Outbound.texts, hqueued, List.filterMap_append, hnone, List.append_nil, Outbound.texts]

theorem Calm.closed (h : o.Calm o') (hc : o.closed = true) : o'.closed = true := by
  simp only [Outbound.closed, Bool.or_eq_true, Bool.not_eq_true'] at hc ⊢
  rcases hc with hc | hc
  · exact .inl (h.cancelled hc)
  · refine .inr (Bool.eq_false_iff.mpr fun hr => ?_)
    rw [(h.receiving hr).1] at hc
    cases hc

theorem calm_cancel (o : Outbound) : o.Calm o.cancel :=
  { Calm.refl o with cancelled := fun _ => rfl }

theorem calm_addSender (o : Outbound) : o.Calm o.addSender := { Calm.refl o with }

theorem calm_dropSender (o : Outbound) : o.Calm o.dropSender := { Calm.refl o with }

theorem calm_dropReceiver (o : Outbound) : o.Calm o.dropReceiver where
  depth := rfl
  waiting := rfl
  cancelled h := h
  receiving h := nomatch h
  room := .inl (Nat.zero_le _)
  idle _ _ := rfl

theorem calm_offer (o : Outbound) (hf : f.text? = none) : o.Calm (o.offer f) := by
  unfold offer
  split
  · rename_i h
    simp only [Bool.and_eq_true, hasRoom, decide_eq_true_eq] at h
    exact {
      depth := rfl
      waiting := rfl
      cancelled := fun h => h
      receiving := fun hr => ⟨hr, [f], rfl, by simp [hf]⟩
      room := .inr (by simp only [push, List.length_append, List.length_singleton]; omega)
      idle := fun _ hr => absurd h.1 (Bool.eq_false_iff.mp hr) }
  · exact Calm.refl o

/-! ## Sending, resuming and taking -/

theorem send_cases (o : Outbound) (ticket : Nat) (text : String) :
    (o.closed = true ∧ o.send ticket text = (.closed, o)) ∨
    (o.closed = false ∧ o.queued.length + o.waiting.length < o.depth ∧
      o.send ticket text = (.queued, o.push (.text text))) ∨
    (o.closed = false ∧ o.depth ≤ o.queued.length + o.waiting.length ∧
      o.send ticket text = (.waits, { o with waiting := o.waiting ++ [(ticket, text)] })) := by
  unfold send
  cases hc : o.closed with
  | true => exact .inl ⟨rfl, rfl⟩
  | false =>
    by_cases hroom : o.queued.length + o.waiting.length < o.depth
    · exact .inr (.inl ⟨rfl, hroom, by simp [hasRoom, hroom]⟩)
    · exact .inr (.inr ⟨rfl, Nat.le_of_not_lt hroom, by simp [hasRoom, hroom]⟩)

theorem resume?_eq_some {delivered : Bool} :
    o.resume? = some (ticket, delivered, o') ↔
      ∃ text rest, o.waiting = (ticket, text) :: rest ∧
        ((o.closed = true ∧ delivered = false ∧ o' = { o with waiting := rest }) ∨
          (o.closed = false ∧ o.queued.length < o.depth ∧ delivered = true ∧
            o' = { o with waiting := rest }.push (.text text))) := by
  unfold resume?
  cases hw : o.waiting with
  | nil => simp
  | cons first rest =>
    obtain ⟨t, x⟩ := first
    cases hc : o.closed with
    | true =>
      constructor
      · intro h
        cases h
        exact ⟨x, rest, rfl, .inl ⟨rfl, rfl, rfl⟩⟩
      · rintro ⟨text, rest', hfirst, ⟨-, rfl, rfl⟩ | ⟨hopen, -⟩⟩
        · cases hfirst
          rfl
        · cases hopen
    | false =>
      by_cases hroom : o.queued.length < o.depth
      · dsimp only
        rw [if_neg Bool.false_ne_true, if_pos hroom]
        constructor
        · intro h
          cases h
          exact ⟨x, rest, rfl, .inr ⟨rfl, hroom, rfl, rfl⟩⟩
        · rintro ⟨text, rest', hfirst, ⟨hclosed, -⟩ | ⟨-, -, rfl, rfl⟩⟩
          · cases hclosed
          · cases hfirst
            rfl
      · simp [hroom]

/-- The first in line goes on. -/
theorem tickets_of_resume? {delivered : Bool} (h : o.resume? = some (ticket, delivered, o')) :
    o.tickets = ticket :: o'.tickets := by
  obtain ⟨text, rest, hwaiting, ⟨-, -, rfl⟩ | ⟨-, -, -, rfl⟩⟩ := resume?_eq_some.mp h
  · simp [tickets, hwaiting]
  · simp [tickets, hwaiting, push]

theorem take?_eq_some : o.take? = some (f, o') ↔ ∃ rest, o.queued = f :: rest ∧ o' = { o with queued := rest } := by
  unfold take?
  cases hq : o.queued with
  | nil => simp
  | cons first rest =>
    constructor
    · intro h
      cases h
      exact ⟨rest, rfl, rfl⟩
    · rintro ⟨rest', hfirst, rfl⟩
      cases hfirst
      rfl

end Outbound

namespace ChannelBook

variable {b b' b'' : ChannelBook} {n m : ChannelNumber} {o : Outbound}

/-! ## The queues of a book -/

/-- Every queue of a book changes calmly, if at all. -/
structure Calm (b b' : ChannelBook) : Prop where
  length : b'.channels.length = b.channels.length
  each : ∀ (n : ChannelNumber) (o' : Outbound), b'.channels[n]? = some o' →
    ∃ o : Outbound, b.channels[n]? = some o ∧ o.Calm o'

theorem Calm.refl (b : ChannelBook) : b.Calm b := ⟨rfl, fun _ o h => ⟨o, h, .refl o⟩⟩

theorem Calm.trans (h : b.Calm b') (h' : b'.Calm b'') : b.Calm b'' where
  length := h'.length.trans h.length
  each n o'' ho'' := by
    obtain ⟨o', ho', hcalm'⟩ := h'.each n o'' ho''
    obtain ⟨o, ho, hcalm⟩ := h.each n o' ho'
    exact ⟨o, ho, hcalm.trans hcalm'⟩

theorem Calm.of_channels (h : b'.channels = b.channels) : b.Calm b' :=
  ⟨by rw [h], fun _ o ho => ⟨o, h ▸ ho, .refl o⟩⟩

theorem Calm.queue (h : b.Calm b') (ho : b.channels[n]? = some o) : ∃ o', b'.channels[n]? = some o' ∧ o.Calm o' := by
  have ho' := List.getElem?_eq_getElem (h.length ▸ (List.getElem?_eq_some_iff.mp ho).1)
  obtain ⟨p, hp, hcalm⟩ := h.each n _ ho'
  rw [ho] at hp
  cases hp
  exact ⟨_, ho', hcalm⟩

theorem Calm.closed (h : b.Calm b') (n : ChannelNumber) (hc : b.closed n = true) : b'.closed n = true := by
  unfold ChannelBook.closed channel? at hc ⊢
  cases ho' : b'.channels[n]? with
  | none => rfl
  | some o' =>
    obtain ⟨o, ho, hcalm⟩ := h.each n o' ho'
    rw [ho] at hc
    exact hcalm.closed hc

theorem modify_self {f : Outbound → Outbound} (ho : b.channels[n]? = some o) :
    (b.modify n f).channels[n]? = some (f o) := by
  simp [modify, ho]

theorem modify_ne {f : Outbound → Outbound} (h : n ≠ m) : (b.modify n f).channels[m]? = b.channels[m]? := by
  simp [modify, h]

/-- What holds of the queue that one channel gets, and of all other queues, holds of all. -/
theorem forall_set {P : ChannelNumber → Outbound → Prop} {o o' : Outbound} (ho : b.channels[n]? = some o)
    (hself : P n o') (hother : ∀ m p, n ≠ m → b.channels[m]? = some p → P m p) :
    ∀ m p, (b.modify n fun _ => o').channels[m]? = some p → P m p := by
  intro m p hp
  by_cases hm : n = m
  · subst hm
    rw [modify_self ho, Option.some.injEq] at hp
    exact hp ▸ hself
  · rw [modify_ne hm] at hp
    exact hother m p hm hp

/-- A queue that stays open or closed leaves all channels open or closed. -/
theorem closed_set {o o' : Outbound} (ho : b.channels[n]? = some o) (h : o'.closed = o.closed) (m : ChannelNumber) :
    (b.modify n fun _ => o').closed m = b.closed m := by
  unfold ChannelBook.closed channel?
  by_cases hnm : n = m
  · subst hnm
    rw [modify_self ho, ho]
    exact h
  · rw [modify_ne hnm]

theorem send_eq {ticket : Nat} {text : String} (ho : b.channels[n]? = some o) :
    b.send n ticket text = ((o.send ticket text).1, b.modify n fun _ => (o.send ticket text).2) := by
  simp [send, channel?, ho]

theorem closed_send (b : ChannelBook) (n : ChannelNumber) (ticket : Nat) (text : String) (m : ChannelNumber) :
    (b.send n ticket text).2.closed m = b.closed m := by
  cases ho : b.channels[n]? with
  | none => simp [send, channel?, ho]
  | some o =>
    rw [send_eq ho]
    refine closed_set ho ?_ m
    rcases o.send_cases ticket text with ⟨-, hsend⟩ | ⟨-, -, hsend⟩ | ⟨-, -, hsend⟩ <;> rw [hsend] <;> rfl

theorem length_send (b : ChannelBook) (n : ChannelNumber) (ticket : Nat) (text : String) :
    (b.send n ticket text).2.channels.length = b.channels.length := by
  unfold send
  split
  · exact List.length_modify ..
  · rfl

/-- Nothing gets through if and only if the channel is closed. -/
theorem send_closed_iff (b : ChannelBook) (n : ChannelNumber) (ticket : Nat) (text : String) :
    (b.send n ticket text).1 = .closed ↔ b.closed n = true := by
  unfold send ChannelBook.closed
  cases b.channel? n with
  | none => simp
  | some o => rcases o.send_cases ticket text with ⟨hc, hsend⟩ | ⟨hc, -, hsend⟩ | ⟨hc, -, hsend⟩ <;> simp [hsend, hc]

theorem calm_modify {f : Outbound → Outbound} (hf : ∀ o : Outbound, o.Calm (f o)) (b : ChannelBook)
    (n : ChannelNumber) : b.Calm (b.modify n f) where
  length := by simp [modify]
  each m o' ho' := by
    by_cases hnm : n = m
    · subst hnm
      simp only [modify, List.getElem?_modify_eq] at ho'
      obtain ⟨o, ho, rfl⟩ := Option.map_eq_some_iff.mp ho'
      exact ⟨o, ho, hf o⟩
    · rw [modify_ne hnm] at ho'
      exact ⟨o', ho', .refl o'⟩

theorem calm_set {o o' : Outbound} (ho : b.channels[n]? = some o) (h : o.Calm o') :
    b.Calm (b.modify n fun _ => o') where
  length := by simp [modify]
  each m p hp := by
    by_cases hnm : n = m
    · subst hnm
      rw [modify_self ho, Option.some.injEq] at hp
      exact ⟨o, ho, hp ▸ h⟩
    · rw [modify_ne hnm] at hp
      exact ⟨p, hp, .refl p⟩

theorem calm_cancel (b : ChannelBook) (n : ChannelNumber) : b.Calm (b.cancel n) :=
  calm_modify Outbound.calm_cancel b n

theorem calm_close (b : ChannelBook) (conn : String) : b.Calm (b.close conn).2 := by
  unfold close
  split
  · rename_i e _
    have herase : b.Calm { b with entries := b.entries.erase conn } := .of_channels rfl
    exact herase.trans (calm_modify (fun o => o.calm_cancel.trans o.cancel.calm_dropSender) _ e.channel)
  · exact .refl b

theorem calm_closeGuard (b : ChannelBook) (conn : String) (n : ChannelNumber) : b.Calm (b.closeGuard conn n) :=
  (b.calm_cancel n).trans ((b.cancel n).calm_close conn)

theorem calm_modifyOpen {f : Outbound → Outbound} (hf : ∀ o : Outbound, o.Calm (f o)) (b : ChannelBook) :
    b.Calm (b.modifyOpen f) :=
  modifyOpen_induction (P := b.Calm) (fun b' n h => h.trans (calm_modify hf b' n)) (.refl b)

/-- A change of every open channel leaves each of them as the change makes it. -/
theorem forall_modifyOpen {Q : Outbound → Prop} {f : Outbound → Outbound} {conn : String} {e : BookEntry}
    (hf : ∀ o, Q (f o)) (he : b.entries.get? conn = some e) :
    ∀ o, (b.modifyOpen f).channels[e.channel]? = some o → Q o := by
  have hfold : ∀ (es : NameTable BookEntry) (b : ChannelBook),
      ((conn, e) ∈ es ∨ ∀ o, b.channels[e.channel]? = some o → Q o) →
        ∀ o, (es.foldl (fun b e => b.modify e.2.channel f) b).channels[e.channel]? = some o → Q o := by
    intro es
    induction es with
    | nil => exact fun b h => h.resolve_left nofun
    | cons first rest ih =>
      intro b h
      refine ih (b.modify first.2.channel f) ?_
      by_cases hchannel : first.2.channel = e.channel
      · refine .inr fun o ho => ?_
        simp only [modify, hchannel, List.getElem?_modify_eq] at ho
        obtain ⟨p, -, rfl⟩ := Option.map_eq_some_iff.mp ho
        exact hf p
      · refine h.imp (fun hmem => ?_) fun hq o ho => ?_
        · rcases List.mem_cons.mp hmem with rfl | hmem
          · exact absurd rfl hchannel
          · exact hmem
        · rw [modify_ne hchannel] at ho
          exact hq o ho
  exact hfold b.entries b (.inl (NameTable.mem_of_get? he))

theorem calm_pingAll (b : ChannelBook) : b.Calm b.pingAll :=
  calm_modifyOpen (f := (·.offer .ping)) (fun o => o.calm_offer rfl) b

theorem calm_shutdownAll (b : ChannelBook) : b.Calm b.shutdownAll := by
  have hmodify := calm_modifyOpen (f := fun o => (o.offer .close).cancel.dropSender)
    (fun o => ((o.calm_offer rfl).trans (Outbound.calm_cancel _)).trans (Outbound.calm_dropSender _)) b
  exact hmodify.trans (.of_channels rfl)

theorem calm_endJob (b : ChannelBook) (conn : String) (id : JobId) : b.Calm (b.endJob conn id).2 := by
  rcases hend : b.endJob conn id with ⟨_ | _, b'⟩
  · obtain ⟨-, rfl⟩ := endJob_eq_false.mp hend
    exact .refl _
  · obtain ⟨e, job, -, -, -, rfl⟩ := endJob_eq_true.mp hend
    exact .of_channels rfl

/-- A channel that is opened is numbered after all others, and its queue is empty. -/
theorem exists_openChannel (b : ChannelBook) (conn : String) : ∃ b', b.Calm b' ∧
    (b.openChannel conn).1 = b.channels.length ∧
      (b.openChannel conn).2.channels = b'.channels ++ [{ Outbound.ofDepth b.depth with senders := 2 }] := by
  unfold openChannel
  cases b.entries.get? conn with
  | none => exact ⟨b, .refl b, rfl, rfl⟩
  | some e =>
    exact ⟨b.modify e.channel Outbound.dropSender, calm_modify Outbound.calm_dropSender b e.channel,
      List.length_modify .., rfl⟩

theorem channels_beginJob {conn key : String} {id : JobId} (h : b.beginJob conn key = .ok (id, b')) :
    b'.channels = b.channels := by
  obtain ⟨e, -, -, -, rfl⟩ := beginJob_eq_ok.mp h
  rfl

/-! ## Cancelled channels -/

/-- The channel was opened and is cancelled. -/
def Cancelled (b : ChannelBook) (n : ChannelNumber) : Prop := ∃ o, b.channels[n]? = some o ∧ o.cancelled = true

theorem Cancelled.closed (h : b.Cancelled n) : b.closed n = true := by
  obtain ⟨o, ho, hc⟩ := h
  simp only [ChannelBook.closed, channel?, ho, Outbound.closed, hc, Bool.true_or]

theorem Cancelled.calm (h : b.Cancelled n) (hcalm : b.Calm b') : b'.Cancelled n := by
  obtain ⟨o, ho, hc⟩ := h
  obtain ⟨o', ho', hqueue⟩ := hcalm.queue ho
  exact ⟨o', ho', hqueue.cancelled hc⟩

theorem Cancelled.opened (h : b.Cancelled n) (conn : String) : (b.openChannel conn).2.Cancelled n := by
  obtain ⟨b', hcalm, -, hchannels⟩ := b.exists_openChannel conn
  obtain ⟨o, ho, hc⟩ := h.calm hcalm
  have hn := (List.getElem?_eq_some_iff.mp ho).1
  exact ⟨o, by rw [hchannels, List.getElem?_append_left hn, ho], hc⟩

theorem Cancelled.set {o o' : Outbound} (h : b.Cancelled n) (ho : b.channels[m]? = some o)
    (hsame : o'.cancelled = o.cancelled) : (b.modify m fun _ => o').Cancelled n := by
  obtain ⟨p, hp, hc⟩ := h
  by_cases hmn : m = n
  · subst hmn
    rw [ho, Option.some.injEq] at hp
    exact ⟨o', modify_self ho, hsame.trans (hp ▸ hc)⟩
  · exact ⟨p, by rw [modify_ne hmn, hp], hc⟩

theorem cancelled_modify {f : Outbound → Outbound} (hf : ∀ o, (f o).cancelled = true) (hn : n < b.channels.length) :
    (b.modify n f).Cancelled n :=
  ⟨_, modify_self (List.getElem?_eq_getElem hn), hf _⟩

/-- A change that cancels every open channel cancels it. -/
theorem cancelled_modifyOpen {f : Outbound → Outbound} {conn : String} {e : BookEntry}
    (hcalm : ∀ o : Outbound, o.Calm (f o)) (hf : ∀ o, (f o).cancelled = true) (he : b.entries.get? conn = some e)
    (hn : e.channel < b.channels.length) : (b.modifyOpen f).Cancelled e.channel := by
  obtain ⟨o, ho, -⟩ := (calm_modifyOpen hcalm b).queue (List.getElem?_eq_getElem hn)
  exact ⟨o, ho, forall_modifyOpen (Q := fun o => o.cancelled = true) hf he o ho⟩

end ChannelBook
end FrameStream
