import FrameStream.Channel.Book

/-!
# Who holds the slot of a channel

The slot of an open channel is empty or held by one job. Each operation on the book is described by what it does to
the entries, name by name, and to the number for the next job; what happens in the queues has no effect on these.
-/

namespace FrameStream
namespace ChannelBook

/-- A channel is open under this name. -/
def registered (b : ChannelBook) (conn : String) : Bool := (b.entries.get? conn).isSome

/-- The job that holds the slot of the channel under a name. -/
def holder? (b : ChannelBook) (conn : String) : Option ActiveJob := (b.entries.get? conn).bind (·.active)

variable {b b' : ChannelBook} {conn c key : String} {id : JobId} {job : ActiveJob}

theorem activeKey?_eq (b : ChannelBook) (conn : String) : b.activeKey? conn = (b.holder? conn).map (·.key) := by
  unfold activeKey? holder?
  cases b.entries.get? conn with
  | none => rfl
  | some e => rfl

theorem registered_of_holder? (h : b.holder? conn = some job) : b.registered conn = true := by
  obtain ⟨e, he, -⟩ := Option.bind_eq_some_iff.mp h
  simp [registered, he]

/-! ## Opening and forgetting -/

theorem entries_openChannel (b : ChannelBook) (conn : String) :
    (b.openChannel conn).2.entries = b.entries.insert conn { channel := b.channels.length } := by
  unfold openChannel
  cases b.entries.get? conn with
  | none => rfl
  | some e => simp [modify]

theorem get?_openChannel (b : ChannelBook) (conn c : String) :
    (b.openChannel conn).2.entries.get? c =
      if c = conn then some { channel := b.channels.length } else b.entries.get? c := by
  rw [entries_openChannel]
  split
  · rename_i h
    rw [h, NameTable.get?_insert_self]
  · rename_i h
    exact NameTable.get?_insert_of_ne h _ _

theorem holder?_openChannel (b : ChannelBook) (conn c : String) :
    (b.openChannel conn).2.holder? c = if c = conn then none else b.holder? c := by
  unfold holder?
  rw [get?_openChannel]
  split <;> rfl

theorem nextId_openChannel (b : ChannelBook) (conn : String) : (b.openChannel conn).2.nextId = b.nextId := by
  unfold openChannel
  cases b.entries.get? conn with
  | none => rfl
  | some e => rfl

theorem get?_close (b : ChannelBook) (conn c : String) :
    (b.close conn).2.entries.get? c = if c = conn then none else b.entries.get? c := by
  unfold close
  cases he : b.entries.get? conn with
  | none =>
    by_cases h : c = conn
    · rw [if_pos h, h]
      exact he
    · rw [if_neg h]
  | some e =>
    simp only [modify]
    split
    · rename_i h
      rw [h, NameTable.get?_erase_self]
    · rename_i h
      exact NameTable.get?_erase_of_ne h _

theorem holder?_close (b : ChannelBook) (conn c : String) :
    (b.close conn).2.holder? c = if c = conn then none else b.holder? c := by
  unfold holder?
  rw [get?_close]
  split <;> rfl

theorem nextId_close (b : ChannelBook) (conn : String) : (b.close conn).2.nextId = b.nextId := by
  unfold close
  cases b.entries.get? conn with
  | none => rfl
  | some e => rfl

theorem holder?_closeGuard (b : ChannelBook) (conn c : String) (n : ChannelNumber) :
    (b.closeGuard conn n).holder? c = if c = conn then none else b.holder? c :=
  holder?_close (b.cancel n) conn c

theorem nextId_closeGuard (b : ChannelBook) (conn : String) (n : ChannelNumber) :
    (b.closeGuard conn n).nextId = b.nextId := nextId_close (b.cancel n) conn

/-- What a change of one queue keeps, the same change of every open channel keeps. -/
theorem modifyOpen_induction {P : ChannelBook → Prop} {f : Outbound → Outbound}
    (hstep : ∀ b n, P b → P (b.modify n f)) (h : P b) : P (b.modifyOpen f) := by
  have hfold : ∀ (es : NameTable BookEntry) (b : ChannelBook),
      P b → P (es.foldl (fun b e => b.modify e.2.channel f) b) := by
    intro es
    induction es with
    | nil => exact fun _ h => h
    | cons e es ih => exact fun b h => ih _ (hstep b e.2.channel h)
  exact hfold b.entries b h

theorem nextId_modifyOpen (b : ChannelBook) (f : Outbound → Outbound) : (b.modifyOpen f).nextId = b.nextId :=
  modifyOpen_induction (P := fun b' => b'.nextId = b.nextId) (fun _ _ h => h) rfl

theorem entries_modifyOpen (b : ChannelBook) (f : Outbound → Outbound) : (b.modifyOpen f).entries = b.entries :=
  modifyOpen_induction (P := fun b' => b'.entries = b.entries) (fun _ _ h => h) rfl

theorem depth_modifyOpen (b : ChannelBook) (f : Outbound → Outbound) : (b.modifyOpen f).depth = b.depth :=
  modifyOpen_induction (P := fun b' => b'.depth = b.depth) (fun _ _ h => h) rfl

theorem nextId_shutdownAll (b : ChannelBook) : b.shutdownAll.nextId = b.nextId := nextId_modifyOpen b _

/-! ## Taking the slot and giving it back -/

/-- A job begins where a channel is open and its slot is empty. -/
theorem beginJob_eq_ok :
    b.beginJob conn key = .ok (id, b') ↔
      ∃ e, b.entries.get? conn = some e ∧ e.active = none ∧ id = b.nextId ∧
        b' = { b with
          entries := b.entries.insert conn { e with active := some ⟨b.nextId, key⟩ }
          nextId := b.nextId + 1 } := by
  unfold beginJob
  cases he : b.entries.get? conn with
  | none => simp
  | some e =>
    cases ha : e.active with
    | some job => simp [ha]
    | none => simp [ha, eq_comm]

theorem holder?_beginJob (h : b.beginJob conn key = .ok (id, b')) (c : String) :
    b'.holder? c = if c = conn then some ⟨b.nextId, key⟩ else b.holder? c := by
  obtain ⟨e, -, -, -, rfl⟩ := beginJob_eq_ok.mp h
  unfold holder?
  split
  · rename_i hc
    simp [hc]
  · rename_i hc
    simp [NameTable.get?_insert_of_ne hc]

theorem exists_beginJob_iff :
    (∃ id b', b.beginJob conn key = .ok (id, b')) ↔ b.registered conn = true ∧ b.holder? conn = none := by
  constructor
  · rintro ⟨id, b', h⟩
    obtain ⟨e, he, ha, -, -⟩ := beginJob_eq_ok.mp h
    exact ⟨by simp [registered, he], by simp [holder?, he, ha]⟩
  · rintro ⟨hopen, hempty⟩
    obtain ⟨e, he⟩ := Option.isSome_iff_exists.mp hopen
    have ha : e.active = none := by simpa [holder?, he] using hempty
    exact ⟨_, _, beginJob_eq_ok.mpr ⟨e, he, ha, rfl, rfl⟩⟩

theorem beginJob_of_holder (h : b.holder? conn = some job) : b.beginJob conn key = .error (.busy job.key) := by
  obtain ⟨e, he, ha⟩ := Option.bind_eq_some_iff.mp h
  simp [beginJob, he, ha]

/-- A job ends if it holds the slot. -/
theorem endJob_eq_true :
    b.endJob conn id = (true, b') ↔
      ∃ e job, b.entries.get? conn = some e ∧ e.active = some job ∧ job.id = id ∧
        b' = { b with entries := b.entries.insert conn { e with active := none } } := by
  unfold endJob
  cases he : b.entries.get? conn with
  | none => simp
  | some e =>
    cases ha : e.active with
    | none => simp [ha]
    | some job =>
      by_cases hid : job.id = id
      · simp [ha, hid, eq_comm]
      · simp [ha, hid]

theorem holder?_endJob (h : b.endJob conn id = (true, b')) (c : String) :
    b'.holder? c = if c = conn then none else b.holder? c := by
  obtain ⟨e, job, -, -, -, rfl⟩ := endJob_eq_true.mp h
  unfold holder?
  split
  · rename_i hc
    simp [hc]
  · rename_i hc
    simp [NameTable.get?_insert_of_ne hc]

/-- A job does not end if it does not hold the slot; then nothing is changed. -/
theorem endJob_eq_false :
    b.endJob conn id = (false, b') ↔ (∀ job, b.holder? conn = some job → job.id ≠ id) ∧ b' = b := by
  unfold endJob holder?
  cases he : b.entries.get? conn with
  | none => simp [eq_comm]
  | some e =>
    cases ha : e.active with
    | none => simp [ha, eq_comm]
    | some job =>
      by_cases hid : job.id = id
      · simp [ha, hid]
      · simp [ha, hid, @eq_comm _ b b']

end ChannelBook
end FrameStream
