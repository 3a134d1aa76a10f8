import FrameStream.Proofs.Channel.Custody
import FrameStream.Proofs.Channel.Traffic

/-!
# What gets into a queue

An event that takes nothing out of the queues puts one frame into each of them at most: a message if the channel is not
closed, a ping or a closing frame if the channel stands in the book. Every channel stands there once, so pings and
closing frames are offered to its queue once. Into the queue of a channel that is cancelled and forgotten nothing gets
any more.
-/

namespace FrameStream

/-- The event neither opens a channel nor takes anything out of a queue. -/
def TrafficEvent.upstream : TrafficEvent → Bool
  | .opened _ => false
  | .received _ => false
  | .receiverDropped _ => false
  | _ => true

namespace ChannelBook

variable {b b' b'' : ChannelBook} {n m : ChannelNumber} {o o' : Outbound} {conn : String}
  {R S : ChannelNumber → Outbound → Outbound → Prop}

/-! ## Queues, one by one -/

/-- No channel comes or goes, and what becomes of every queue is as `R` says. -/
structure Each (R : ChannelNumber → Outbound → Outbound → Prop) (b b' : ChannelBook) : Prop where
  length : b'.channels.length = b.channels.length
  queue : ∀ n o, b.channels[n]? = some o → ∃ o', b'.channels[n]? = some o' ∧ R n o o'

theorem Each.of_channels (hrefl : ∀ n o, R n o o) (h : b'.channels = b.channels) : b.Each R b' :=
  ⟨by rw [h], fun n o ho => ⟨o, h ▸ ho, hrefl n o⟩⟩

theorem Each.trans (htrans : ∀ n o o' o'', R n o o' → R n o' o'' → R n o o'') (h : b.Each R b') (h' : b'.Each R b'') :
    b.Each R b'' where
  length := h'.length.trans h.length
  queue n o ho := by
    obtain ⟨o', ho', hR⟩ := h.queue n o ho
    obtain ⟨o'', ho'', hR'⟩ := h'.queue n o' ho'
    exact ⟨o'', ho'', htrans n o o' o'' hR hR'⟩

theorem Each.mono (h : b.Each R b') (hRS : ∀ n o o', R n o o' → S n o o') : b.Each S b' where
  length := h.length
  queue n o ho := by
    obtain ⟨o', ho', hR⟩ := h.queue n o ho
    exact ⟨o', ho', hRS n o o' hR⟩

theorem each_modify (hrefl : ∀ n o, R n o o) {f : Outbound → Outbound}
    (hf : ∀ o, b.channels[m]? = some o → R m o (f o)) : b.Each R (b.modify m f) where
  length := List.length_modify ..
  queue n o ho := by
    by_cases hmn : m = n
    · subst hmn
      exact ⟨f o, modify_self ho, hf o ho⟩
    · exact ⟨o, (modify_ne hmn).trans ho, hrefl n o⟩

theorem each_set (hrefl : ∀ n o, R n o o) (ho : b.channels[n]? = some o) (h : R n o o') :
    b.Each R (b.modify n fun _ => o') :=
  each_modify hrefl fun p hp => by
    rw [ho, Option.some.injEq] at hp
    exact hp ▸ h

theorem modify_eq (ho : b.channels[n]? = some o) (f : Outbound → Outbound) :
    b.modify n f = b.modify n fun _ => f o := by
  simp [modify, List.modify_eq_set_getElem?, ho]

theorem modify_modify (b : ChannelBook) (n : ChannelNumber) (f g : Outbound → Outbound) :
    (b.modify n f).modify n g = b.modify n (g ∘ f) := by
  rw [modify, modify, List.modify_modify_eq, modify]

/-- Changing every open channel changes the queues of the channels that stand in the book, each once. -/
theorem each_modifyOpen (hb : (b.entries.map (·.2.channel)).Nodup) (f : Outbound → Outbound) :
    b.Each (fun n o o' => o' = if n ∈ b.entries.map (·.2.channel) then f o else o) (b.modifyOpen f) := by
  have hfold : ∀ (es : NameTable BookEntry) (b : ChannelBook), (es.map (·.2.channel)).Nodup →
      b.Each (fun n o o' => o' = if n ∈ es.map (·.2.channel) then f o else o)
        (es.foldl (fun b e => b.modify e.2.channel f) b) := by
    intro es
    induction es with
    | nil => exact fun b _ => .of_channels (fun _ _ => (if_neg List.not_mem_nil).symm) rfl
    | cons first rest ih =>
      intro b hnodup
      obtain ⟨hfirst, hrest⟩ := List.nodup_cons.mp hnodup
      have hlater := ih (b.modify first.2.channel f) hrest
      refine ⟨hlater.length.trans (List.length_modify ..), fun n o ho => ?_⟩
      by_cases hn : first.2.channel = n
      · subst hn
        obtain ⟨o', ho', hR⟩ := hlater.queue _ _ (modify_self ho)
        refine ⟨o', ho', ?_⟩
        rw [hR, if_neg hfirst, List.map_cons, if_pos List.mem_cons_self]
      · obtain ⟨o', ho', hR⟩ := hlater.queue n o ((modify_ne hn).trans ho)
        refine ⟨o', ho', ?_⟩
        have hmem : n ∈ (first :: rest).map (·.2.channel) ↔ n ∈ rest.map (·.2.channel) := by
          rw [List.map_cons, List.mem_cons]
          exact or_iff_right fun heq => hn heq.symm
        rw [hR, if_congr hmem.symm rfl rfl]
  exact hfold b.entries b hb

/-! ## Which channels stand in the book -/

/-- A channel stands in the book. -/
def Lists (b : ChannelBook) (n : ChannelNumber) : Prop := ∃ conn, b.chart.get? conn = some n

/-- The channels that stand in a book were opened, and none of them stands under two names. -/
structure Tidy (b : ChannelBook) : Prop where
  ascending : b.chart.Ascending
  opened : ∀ n, b.Lists n → n < b.channels.length
  once : ∀ conn conn' n, b.chart.get? conn = some n → b.chart.get? conn' = some n → conn = conn'

theorem tidy_ofDepth (depth : Nat) : (ofDepth depth).Tidy where
  ascending := List.Pairwise.nil
  opened _ h := nomatch h.choose_spec
  once _ _ _ h := nomatch h

theorem Tidy.nodup (h : b.Tidy) : (b.entries.map (·.2.channel)).Nodup := nodup_channels h.ascending h.once

theorem Tidy.lists_iff (h : b.Tidy) : b.Lists n ↔ n ∈ b.entries.map (·.2.channel) := (mem_channels h.ascending).symm

/-- Names are struck from a book, if anything is changed about them at all. -/
structure Strikes (b b' : ChannelBook) : Prop where
  ascending : b.chart.Ascending → b'.chart.Ascending
  kept : ∀ conn n, b'.chart.get? conn = some n → b.chart.get? conn = some n

theorem Strikes.of_chart (h : b'.chart = b.chart) : b.Strikes b' := ⟨fun ha => h ▸ ha, fun _ _ hn => h ▸ hn⟩

theorem strikes_close (b : ChannelBook) (conn : String) : b.Strikes (b.close conn).2 where
  ascending h := by
    rw [chart_close]
    exact NameTable.ascending_erase h
  kept other n hn := by
    rw [chart_close, NameTable.get?_erase_eq_some] at hn
    exact hn.2

/-- After a shutdown no channel stands in the book. -/
theorem not_lists_shutdownAll (b : ChannelBook) (n : ChannelNumber) : ¬ b.shutdownAll.Lists n := by
  rintro ⟨conn, hn⟩
  cases hn

theorem strikes_shutdownAll (b : ChannelBook) : b.Strikes b.shutdownAll where
  ascending _ := List.Pairwise.nil
  kept conn n hn := absurd ⟨conn, hn⟩ (b.not_lists_shutdownAll n)

theorem Strikes.lists (h : b.Strikes b') (hn : b'.Lists n) : b.Lists n := ⟨hn.choose, h.kept _ _ hn.choose_spec⟩

theorem Tidy.strikes (h : b.Tidy) (hstrikes : b.Strikes b') (hlength : b'.channels.length = b.channels.length) :
    b'.Tidy where
  ascending := hstrikes.ascending h.ascending
  opened n hn := hlength ▸ h.opened n (hstrikes.lists hn)
  once conn conn' n hn hn' := h.once conn conn' n (hstrikes.kept conn n hn) (hstrikes.kept conn' n hn')

theorem length_openChannel (b : ChannelBook) (conn : String) :
    (b.openChannel conn).2.channels.length = b.channels.length + 1 := by
  obtain ⟨b', hcalm, -, hchannels⟩ := b.exists_openChannel conn
  rw [hchannels, List.length_append, hcalm.length, List.length_singleton]

/-- A channel that is opened stands in the book, and no other one that did not. -/
theorem lists_openChannel (h : (b.openChannel conn).2.Lists n) : n = b.channels.length ∨ b.Lists n := by
  obtain ⟨other, hother⟩ := h
  rw [chart_openChannel, NameTable.get?_insert_eq_some] at hother
  rcases hother with ⟨-, rfl⟩ | ⟨-, hother⟩
  · exact .inl rfl
  · exact .inr ⟨other, hother⟩

theorem Tidy.openChannel (h : b.Tidy) (conn : String) : (b.openChannel conn).2.Tidy where
  ascending := by
    rw [chart_openChannel]
    exact NameTable.ascending_insert h.ascending
  opened n hn := by
    rw [length_openChannel]
    rcases lists_openChannel hn with rfl | hn
    · exact Nat.lt_succ_self _
    · exact Nat.lt_succ_of_lt (h.opened n hn)
  once c c' n hn hn' := by
    rw [chart_openChannel, NameTable.get?_insert_eq_some] at hn hn'
    -- The new number is above all that stand in the book.
    have hnew : ∀ other, b.chart.get? other ≠ some b.channels.length := fun other hother =>
      Nat.lt_irrefl _ (h.opened _ ⟨other, hother⟩)
    rcases hn with ⟨rfl, rfl⟩ | ⟨-, hn⟩ <;> rcases hn' with ⟨rfl, heq⟩ | ⟨-, hn'⟩
    · rfl
    · exact absurd hn' (hnew c')
    · exact absurd (heq ▸ hn) (hnew c)
    · exact h.once c c' n hn hn'

end ChannelBook

/-! ## What gets into a queue -/

/-- Frames stay where they are. -/
structure Outbound.Still (o o' : Outbound) : Prop where
  receiving : o'.receiving = o.receiving
  cancelled : o.cancelled = true → o'.cancelled = true
  queued : o'.queued = o.queued

theorem Outbound.Still.refl (o : Outbound) : o.Still o := ⟨rfl, id, rfl⟩

theorem Outbound.Still.trans {o o' o'' : Outbound} (h : o.Still o') (h' : o'.Still o'') : o.Still o'' where
  receiving := h'.receiving.trans h.receiving
  cancelled hc := h'.cancelled (h.cancelled hc)
  queued := h'.queued.trans h.queued

namespace ChannelBook

variable {b : ChannelBook} {e : TrafficEvent} {n : ChannelNumber} {o o' : Outbound}

/-- What gets into the queue of a channel in one event: a message unless the channel is closed, a ping or a closing
frame if it stands in the book. -/
inductive Gain (b : ChannelBook) (e : TrafficEvent) (n : ChannelNumber) (o : Outbound) : List OutFrame → Prop where
  | nothing : Gain b e n o []
  | message (text : String) (opened : o.closed = false) : Gain b e n o [.text text]
  | ping (listed : b.Lists n) (receiving : o.receiving = true) : Gain b e n o [.ping]
  | close (shutDown : e = .shutDown) (listed : b.Lists n) (receiving : o.receiving = true) : Gain b e n o [.close]

/-- What one event does to the queue of a channel out of which it takes nothing. -/
structure Fed (b : ChannelBook) (e : TrafficEvent) (n : ChannelNumber) (o o' : Outbound) : Prop where
  receiving : o'.receiving = o.receiving
  cancelled : o.cancelled = true → o'.cancelled = true
  queued : ∃ more, b.Gain e n o more ∧ o'.queued = o.queued ++ more

theorem Fed.of_still (h : o.Still o') : b.Fed e n o o' :=
  ⟨h.receiving, h.cancelled, [], .nothing, by rw [h.queued, List.append_nil]⟩

theorem Fed.refl (b : ChannelBook) (e : TrafficEvent) (n : ChannelNumber) (o : Outbound) : b.Fed e n o o :=
  .of_still (.refl o)

theorem Fed.offer {f : OutFrame} (h : o.receiving = true → b.Gain e n o [f]) : b.Fed e n o (o.offer f) := by
  unfold Outbound.offer
  split
  · rename_i hroom
    rw [Bool.and_eq_true] at hroom
    exact ⟨rfl, id, [f], h hroom.1, rfl⟩
  · exact .refl b e n o

/-- Nothing gets into a queue that nobody takes from. -/
theorem Fed.idle (h : b.Fed e n o o') (ho : o.Idle) : o'.Idle := by
  intro hr
  rw [h.receiving] at hr
  obtain ⟨more, hgain, hqueued⟩ := h.queued
  rw [hqueued, ho hr, List.nil_append]
  cases hgain with
  | nothing => rfl
  | message text opened =>
    rw [Outbound.closed, hr] at opened
    simp at opened
  | ping listed receiving => exact absurd receiving (Bool.eq_false_iff.mp hr)
  | close shutDown listed receiving => exact absurd receiving (Bool.eq_false_iff.mp hr)

/-- Nothing gets into a queue that is cancelled and forgotten. -/
theorem Fed.still (h : b.Fed e n o o') (hforgotten : ¬ b.Lists n) (hcancelled : o.cancelled = true) : o.Still o' := by
  obtain ⟨more, hgain, hqueued⟩ := h.queued
  refine ⟨h.receiving, h.cancelled, ?_⟩
  cases hgain with
  | nothing => rw [hqueued, List.append_nil]
  | message text opened =>
    rw [Outbound.closed, hcancelled] at opened
    cases opened
  | ping listed receiving => exact absurd listed hforgotten
  | close shutDown listed receiving => exact absurd listed hforgotten

theorem each_still_modify {f : Outbound → Outbound} (hf : ∀ o : Outbound, o.Still (f o)) (b : ChannelBook)
    (n : ChannelNumber) : b.Each (fun _ => Outbound.Still) (b.modify n f) :=
  each_modify (fun _ => .refl) fun o _ => hf o

theorem each_still_cancel (b : ChannelBook) (n : ChannelNumber) : b.Each (fun _ => Outbound.Still) (b.cancel n) :=
  each_still_modify (f := Outbound.cancel) (fun _ => ⟨rfl, fun _ => rfl, rfl⟩) b n

theorem each_still_close (b : ChannelBook) (conn : String) : b.Each (fun _ => Outbound.Still) (b.close conn).2 := by
  unfold close
  split
  · rename_i e _
    have hdrop : ∀ o : Outbound, o.Still o.cancel.dropSender := fun _ => ⟨rfl, fun _ => rfl, rfl⟩
    have hqueues := each_still_modify hdrop b e.channel
    exact ⟨hqueues.length, hqueues.queue⟩
  · exact .of_channels (fun _ => .refl) rfl

/-- A channel that is opened leaves the frames of all others where they are. -/
theorem still_openChannel (conn : String) (ho : b.channels[n]? = some o) :
    ∃ o', (b.openChannel conn).2.channels[n]? = some o' ∧ o.Still o' := by
  have hn := (List.getElem?_eq_some_iff.mp ho).1
  unfold openChannel
  cases b.entries.get? conn with
  | none => exact ⟨o, (List.getElem?_append_left hn).trans ho, .refl o⟩
  | some e =>
    have hdrop : ∀ o : Outbound, o.Still o.dropSender := fun _ => ⟨rfl, id, rfl⟩
    have heach := each_still_modify hdrop b e.channel
    obtain ⟨o', ho', hstill⟩ := heach.queue n o ho
    exact ⟨o', (List.getElem?_append_left (heach.length ▸ hn)).trans ho', hstill⟩

theorem getElem?_openChannel (b : ChannelBook) (conn : String) : (b.openChannel conn).2.channels[b.channels.length]? =
    some { Outbound.ofDepth b.depth with senders := 2 } := by
  obtain ⟨b', hcalm, -, hchannels⟩ := b.exists_openChannel conn
  rw [hchannels, ← hcalm.length]
  exact List.getElem?_concat_length

theorem entries_send (b : ChannelBook) (n : ChannelNumber) (ticket : Nat) (text : String) :
    (b.send n ticket text).2.entries = b.entries := by
  unfold send
  split <;> rfl

theorem Each.of_still {b' : ChannelBook} (h : b.Each (fun _ => Outbound.Still) b') : b.Each (b.Fed e) b' :=
  h.mono fun _ _ _ => .of_still

theorem each_still_closeGuard (b : ChannelBook) (conn : String) (n : ChannelNumber) :
    b.Each (fun _ => Outbound.Still) (b.closeGuard conn n) :=
  (each_still_cancel b n).trans (fun _ _ _ _ => .trans) (each_still_close _ conn)

theorem strikes_closeGuard (b : ChannelBook) (conn : String) (n : ChannelNumber) : b.Strikes (b.closeGuard conn n) :=
  have hclose := strikes_close (b.cancel n) conn
  ⟨hclose.ascending, hclose.kept⟩

theorem fed_pingAll (hb : b.Tidy) : b.Each (b.Fed e) b.pingAll := by
  refine (each_modifyOpen hb.nodup _).mono fun n o o' heq => ?_
  rw [heq]
  split
  · rename_i hn
    exact .offer (.ping (hb.lists_iff.mpr hn))
  · exact .refl ..

theorem fed_shutdownAll (hb : b.Tidy) : b.Each (b.Fed .shutDown) b.shutdownAll := by
  have heach := each_modifyOpen hb.nodup fun o => (o.offer .close).cancel.dropSender
  refine ⟨heach.length, fun n o ho => ?_⟩
  obtain ⟨o', ho', heq⟩ := heach.queue n o ho
  refine ⟨o', ho', ?_⟩
  rw [heq]
  split
  · rename_i hn
    have hoffer : b.Fed .shutDown n o (o.offer .close) := .offer (.close rfl (hb.lists_iff.mpr hn))
    exact ⟨hoffer.receiving, fun _ => rfl, hoffer.queued⟩
  · exact .refl ..

theorem fed_send {ticket : Nat} {text : String} (hn : n < b.channels.length) :
    b.Each (b.Fed e) (b.send n ticket text).2 := by
  have ho := List.getElem?_eq_getElem hn
  rw [send_eq ho]
  refine each_set (Fed.refl _ _) ho ?_
  rcases Outbound.send_cases _ ticket text with ⟨-, hsend⟩ | ⟨hopen, -, hsend⟩ | ⟨-, -, hsend⟩ <;> rw [hsend]
  · exact .refl ..
  · exact ⟨rfl, id, _, .message _ hopen, rfl⟩
  · exact .of_still ⟨rfl, id, rfl⟩

/-- Whoever waited goes on: the message gets into the queue unless the channel is closed. -/
theorem fed_resumed {place k : Nat} {ok : Bool} (ho : b.channels[n]? = some o)
    (h : o.resumeAt? place = some (k, ok, o')) : b.Each (b.Fed e) (b.modify n fun _ => o') := by
  obtain ⟨text, -, ⟨-, -, rfl⟩ | ⟨hopen, -, -, rfl⟩⟩ := Outbound.resumeAt?_eq_some.mp h
  · exact each_set (Fed.refl _ _) ho (.of_still ⟨rfl, id, rfl⟩)
  · exact each_set (Fed.refl _ _) ho ⟨rfl, id, _, .message _ hopen, rfl⟩

end ChannelBook

namespace Traffic

open ChannelBook

variable {t t' : Traffic} {e : TrafficEvent}

/-- An event that takes nothing out of the queues puts one frame into each at most, and forgets channels if it does
anything to the names. -/
theorem fed_step (hb : t.book.Tidy) (he : e.upstream = true) (hs : t.step? e = some t') :
    t.book.Each (t.book.Fed e) t'.book ∧ t.book.Strikes t'.book := by
  have hmodify : ∀ {f : Outbound → Outbound} (n : ChannelNumber), (∀ o : Outbound, o.Still (f o)) →
      t.book.Each (t.book.Fed e) (t.book.modify n f) := fun n hf => (each_still_modify hf _ n).of_still
  cases e with
  | opened conn => cases he
  | received n => cases he
  | receiverDropped n => cases he
  | closed conn =>
    cases hs
    exact ⟨(each_still_close _ conn).of_still, strikes_close _ conn⟩
  | guardClosed conn n =>
    cases hs
    exact ⟨(each_still_closeGuard _ conn n).of_still, strikes_closeGuard _ conn n⟩
  | cancelled n =>
    cases hs
    exact ⟨(each_still_cancel _ n).of_still, .of_chart rfl⟩
  | cloned n =>
    cases hs
    exact ⟨hmodify n fun _ => ⟨rfl, id, rfl⟩, .of_chart rfl⟩
  | dropped n =>
    cases hs
    exact ⟨hmodify n fun _ => ⟨rfl, id, rfl⟩, .of_chart rfl⟩
  | pinged =>
    cases hs
    exact ⟨fed_pingAll hb, .of_chart t.book.chart_pingAll⟩
  | shutDown =>
    cases hs
    exact ⟨fed_shutdownAll hb, strikes_shutdownAll _⟩
  | sent n m =>
    simp only [step?, Option.ite_none_right_eq_some, Option.some.injEq] at hs
    obtain ⟨hn, rfl⟩ := hs
    have hchart : (t.send n m).book.chart = t.book.chart := by rw [chart, send, entries_send, chart]
    exact ⟨fed_send hn, .of_chart hchart⟩
  | resumed n place =>
    simp only [step?, ChannelBook.channel?] at hs
    split at hs
    · rename_i o ho
      obtain ⟨⟨k, ok, o'⟩, hresume, rfl⟩ := Option.map_eq_some_iff.mp hs
      exact ⟨fed_resumed ho hresume, .of_chart rfl⟩
    · cases hs

end Traffic
end FrameStream
