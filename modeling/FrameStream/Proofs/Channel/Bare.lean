import FrameStream.Proofs.Channel.Feeding

/-!
# Books without jobs

What goes through the queues of a book does not depend on its slots, nor on the numbers under which messages wait. The
bare book of a book (`ChannelBook.bare`) has every slot free, and in it messages wait under other numbers. Whatever
happens to a book happens to its bare book alike, and taking or giving back a slot is nothing to it.
-/

namespace FrameStream

namespace Outbound

/-- The queue with those who wait under other numbers. -/
def renumber (place : Nat → Nat) (o : Outbound) : Outbound :=
  { o with waiting := o.waiting.map fun w => (place w.1, w.2) }

variable {place place' : Nat → Nat} {o : Outbound}

theorem renumber_congr (h : ∀ w ∈ o.waiting, place w.1 = place' w.1) : o.renumber place = o.renumber place' := by
  rw [renumber, renumber, List.map_congr_left fun w hw => by rw [h w hw]]

theorem hasRoom_renumber (place : Nat → Nat) (o : Outbound) : (o.renumber place).hasRoom = o.hasRoom := by
  simp [hasRoom, renumber]

theorem send_renumber (place : Nat → Nat) (o : Outbound) (ticket : Nat) (text : String) :
    (o.renumber place).send (place ticket) text = ((o.send ticket text).1, (o.send ticket text).2.renumber place) := by
  have hclosed : (o.renumber place).closed = o.closed := rfl
  rcases o.send_cases ticket text with ⟨hc, hsend⟩ | ⟨hc, hroom, hsend⟩ | ⟨hc, hroom, hsend⟩
  · rw [hsend, send, hclosed, if_pos hc]
  · rw [hsend, send, hclosed, hasRoom_renumber, if_neg (by simp [hc]), if_pos (by simpa [hasRoom] using hroom)]
    rfl
  · rw [hsend, send, hclosed, hasRoom_renumber, if_neg (by simp [hc]), if_neg (by simpa [hasRoom] using hroom)]
    simp [renumber]

theorem offer_renumber (place : Nat → Nat) (o : Outbound) (f : OutFrame) :
    (o.renumber place).offer f = (o.offer f).renumber place := by
  unfold offer
  rw [hasRoom_renumber]
  show (if o.receiving && o.hasRoom then _ else _) = _
  split <;> rfl

theorem resume?_renumber (place : Nat → Nat) (o : Outbound) :
    (o.renumber place).resume? = o.resume?.map fun (ticket, ok, o) => (place ticket, ok, o.renumber place) := by
  have hclosed : (o.renumber place).closed = o.closed := rfl
  unfold resume?
  rw [hclosed]
  cases hw : o.waiting with
  | nil => simp [renumber, hw]
  | cons first rest =>
    simp only [renumber, hw, List.map_cons]
    split
    · rfl
    · split <;> rfl

theorem take?_renumber (place : Nat → Nat) (o : Outbound) :
    (o.renumber place).take? = o.take?.map fun taken => (taken.1, taken.2.renumber place) := by
  have hqueued : (o.renumber place).queued = o.queued := rfl
  unfold take?
  rw [hqueued]
  cases o.queued <;> rfl

end Outbound

/-- The entry without its job. -/
def BookEntry.vacant (e : BookEntry) : BookEntry := { channel := e.channel }

namespace ChannelBook

/-- The book without its jobs, with those who wait under other numbers. -/
def bare (place : Nat → Nat) (b : ChannelBook) : ChannelBook where
  depth := b.depth
  channels := b.channels.map (·.renumber place)
  entries := NameTable.mapValues BookEntry.vacant b.entries

variable {b b' : ChannelBook} {place place' : Nat → Nat} {conn key : String} {n : ChannelNumber} {id : JobId}
  {o o' : Outbound} {f g : Outbound → Outbound}

theorem getElem?_bare (place : Nat → Nat) (b : ChannelBook) (n : ChannelNumber) :
    (b.bare place).channels[n]? = (b.channels[n]?).map (·.renumber place) := List.getElem?_map

theorem get?_bare (place : Nat → Nat) (b : ChannelBook) (conn : String) :
    (b.bare place).entries.get? conn = (b.entries.get? conn).map BookEntry.vacant :=
  NameTable.get?_mapValues _ conn b.entries

/-- A change of a queue that renumbers as another does is the other one in the bare book. -/
theorem bare_modify (h : ∀ o, b.channels[n]? = some o → (f o).renumber place = g (o.renumber place)) :
    (b.modify n f).bare place = (b.bare place).modify n g := by
  have hchannels : (b.channels.modify n f).map (·.renumber place) =
      (b.channels.map (·.renumber place)).modify n g := by
    refine List.ext_getElem? fun m => ?_
    rw [List.getElem?_map, List.getElem?_modify, List.getElem?_modify, List.getElem?_map]
    by_cases hm : n = m
    · subst hm
      cases ho : b.channels[n]? with
      | none => rfl
      | some o => simp [h o ho]
    · simp [hm]
  simp only [bare, modify, hchannels]

/-- A change that has nothing to do with those who wait is the same in the bare book. -/
theorem bare_modify_self (h : ∀ o : Outbound, (f o).renumber place = f (o.renumber place)) (b : ChannelBook)
    (n : ChannelNumber) : (b.modify n f).bare place = (b.bare place).modify n f :=
  bare_modify fun o _ => h o

theorem bare_set (place : Nat → Nat) (b : ChannelBook) (n : ChannelNumber) (o : Outbound) :
    (b.modify n fun _ => o).bare place = (b.bare place).modify n fun _ => o.renumber place :=
  bare_modify fun _ _ => rfl

theorem bare_congr (h : ∀ (n : ChannelNumber) (o : Outbound), b.channels[n]? = some o →
      ∀ w ∈ o.waiting, place w.1 = place' w.1) :
    b.bare place = b.bare place' := by
  have hchannels : b.channels.map (·.renumber place) = b.channels.map (·.renumber place') := by
    refine List.map_congr_left fun o ho => ?_
    obtain ⟨n, hn⟩ := List.mem_iff_getElem?.mp ho
    exact Outbound.renumber_congr (h n o hn)
  rw [bare, hchannels, bare]

theorem bare_openChannel (place : Nat → Nat) (b : ChannelBook) (conn : String) :
    (b.openChannel conn).2.bare place = ((b.bare place).openChannel conn).2 := by
  unfold openChannel
  rw [get?_bare]
  cases b.entries.get? conn with
  | none => simp [bare, NameTable.mapValues_insert, BookEntry.vacant, Outbound.renumber, Outbound.ofDepth]
  | some e =>
    have hdrop : (b.modify e.channel Outbound.dropSender).bare place =
        (b.bare place).modify e.channel Outbound.dropSender :=
      bare_modify_self (f := Outbound.dropSender) (fun _ => rfl) b e.channel
    simp only [Option.map_some, BookEntry.vacant, ← hdrop]
    simp [bare, modify, NameTable.mapValues_insert, BookEntry.vacant, Outbound.renumber, Outbound.ofDepth]

theorem bare_close (place : Nat → Nat) (b : ChannelBook) (conn : String) :
    (b.close conn).2.bare place = ((b.bare place).close conn).2 := by
  unfold close
  rw [get?_bare]
  cases b.entries.get? conn with
  | none => rfl
  | some e =>
    have herase : ({ b with entries := b.entries.erase conn } : ChannelBook).bare place =
        { b.bare place with entries := (b.bare place).entries.erase conn } := by
      rw [bare, NameTable.mapValues_erase]
      rfl
    simp only [Option.map_some, BookEntry.vacant, ← herase]
    exact bare_modify_self (f := fun o => o.cancel.dropSender) (fun _ => rfl) _ e.channel

theorem bare_cancel (place : Nat → Nat) (b : ChannelBook) (n : ChannelNumber) :
    (b.cancel n).bare place = (b.bare place).cancel n := bare_modify_self (f := Outbound.cancel) (fun _ => rfl) b n

theorem bare_closeGuard (place : Nat → Nat) (b : ChannelBook) (conn : String) (n : ChannelNumber) :
    (b.closeGuard conn n).bare place = (b.bare place).closeGuard conn n := by
  rw [closeGuard, bare_close, bare_cancel, closeGuard]

theorem bare_modifyOpen (h : ∀ o : Outbound, (f o).renumber place = f (o.renumber place)) (b : ChannelBook) :
    (b.modifyOpen f).bare place = (b.bare place).modifyOpen f := by
  have hfold : ∀ (es : NameTable BookEntry) (b : ChannelBook),
      (es.foldl (fun b e => b.modify e.2.channel f) b).bare place =
        (NameTable.mapValues BookEntry.vacant es).foldl (fun b e => b.modify e.2.channel f) (b.bare place) := by
    intro es
    induction es with
    | nil => exact fun b => rfl
    | cons first rest ih =>
      intro b
      rw [List.foldl_cons, ih, bare_modify_self h]
      rfl
  exact hfold b.entries b

theorem bare_pingAll (place : Nat → Nat) (b : ChannelBook) : b.pingAll.bare place = (b.bare place).pingAll :=
  bare_modifyOpen (f := (·.offer .ping)) (fun o => (o.offer_renumber place .ping).symm) b

theorem bare_shutdownAll (place : Nat → Nat) (b : ChannelBook) :
    b.shutdownAll.bare place = (b.bare place).shutdownAll := by
  have hoffer : ∀ o : Outbound, ((o.offer .close).cancel.dropSender).renumber place =
      ((o.renumber place).offer .close).cancel.dropSender := fun o => by rw [Outbound.offer_renumber]; rfl
  have hmodify := bare_modifyOpen (f := fun o => (o.offer .close).cancel.dropSender) hoffer b
  rw [shutdownAll, shutdownAll, ← hmodify]
  rfl

/-- An entry that is replaced by one of the same channel changes nothing without its job. -/
theorem bare_insert {e e' : BookEntry} (hb : b.chart.Ascending) (he : b.entries.get? conn = some e)
    (hchannel : e'.channel = e.channel) {nextId : JobId} :
    ({ b with entries := b.entries.insert conn e', nextId } : ChannelBook).bare place = b.bare place := by
  have hget : (NameTable.mapValues BookEntry.vacant b.entries).get? conn = some e'.vacant := by
    rw [NameTable.get?_mapValues, he, BookEntry.vacant, hchannel]
    rfl
  have hascending : (NameTable.mapValues BookEntry.vacant b.entries).Ascending := by
    rw [NameTable.Ascending, NameTable.names_mapValues, ← NameTable.names_mapValues (·.channel)]
    exact hb
  rw [bare, NameTable.mapValues_insert, NameTable.insert_eq_self hascending hget]
  rfl

theorem bare_beginJob (hb : b.chart.Ascending) (h : b.beginJob conn key = .ok (id, b')) (place : Nat → Nat) :
    b'.bare place = b.bare place := by
  obtain ⟨e, he, -, -, rfl⟩ := beginJob_eq_ok.mp h
  refine bare_insert hb he ?_
  rfl

theorem bare_endJob (hb : b.chart.Ascending) (conn : String) (id : JobId) (place : Nat → Nat) :
    (b.endJob conn id).2.bare place = b.bare place := by
  rcases hend : b.endJob conn id with ⟨_ | _, b'⟩
  · obtain ⟨-, rfl⟩ := endJob_eq_false.mp hend
    rfl
  · obtain ⟨e, job, he, -, -, rfl⟩ := endJob_eq_true.mp hend
    refine bare_insert hb he ?_
    rfl

theorem bare_send (place : Nat → Nat) (b : ChannelBook) (n : ChannelNumber) (ticket : Nat) (text : String) :
    (b.bare place).send n (place ticket) text = ((b.send n ticket text).1, (b.send n ticket text).2.bare place) := by
  cases ho : b.channels[n]? with
  | none => simp [send, channel?, getElem?_bare, ho]
  | some o =>
    have ho' : (b.bare place).channels[n]? = some (o.renumber place) := by rw [getElem?_bare, ho]; rfl
    rw [send_eq ho, send_eq ho', Outbound.send_renumber]
    rw [bare_set]

theorem bare_take? (place : Nat → Nat) (b : ChannelBook) (n : ChannelNumber) :
    (b.bare place).take? n = (b.take? n).map fun taken => (taken.1, taken.2.bare place) := by
  simp only [take?, channel?, getElem?_bare]
  cases b.channels[n]? with
  | none => rfl
  | some o =>
    simp only [Option.map_some, Outbound.take?_renumber, Option.map_map]
    refine congrArg (Option.map · o.take?) (funext fun taken => ?_)
    exact congrArg (Prod.mk taken.1) (bare_set place b n taken.2).symm

/-- All who wait on the channels of a book do so under numbers below `limit`. -/
def Early (b : ChannelBook) (limit : Nat) : Prop :=
  ∀ (n : ChannelNumber) (o : Outbound), b.channels[n]? = some o → ∀ w ∈ o.waiting, w.1 < limit

theorem Early.calm {limit : Nat} (h : b.Early limit) (hcalm : b.Calm b') : b'.Early limit := by
  intro n o' ho' w hw
  obtain ⟨o, ho, ho'⟩ := hcalm.each n o' ho'
  exact h n o ho w (ho'.waiting ▸ hw)

theorem Early.openChannel {limit : Nat} (h : b.Early limit) (conn : String) : (b.openChannel conn).2.Early limit := by
  obtain ⟨b', hcalm, -, hchannels⟩ := b.exists_openChannel conn
  intro n o ho w hw
  rw [hchannels] at ho
  rcases getElem?_concat_eq_some ho with ho | ⟨-, rfl⟩
  · exact h.calm hcalm n o ho w hw
  · cases hw

theorem Early.set {limit limit' : Nat} (h : b.Early limit) (hle : limit ≤ limit') (ho : b.channels[n]? = some o)
    (hw : ∀ w ∈ o'.waiting, w.1 < limit') : (b.modify n fun _ => o').Early limit' :=
  forall_set (P := fun _ o => ∀ w ∈ o.waiting, w.1 < limit') ho hw
    fun m p _ hp w hw => Nat.lt_of_lt_of_le (h m p hp w hw) hle

end ChannelBook

end FrameStream
