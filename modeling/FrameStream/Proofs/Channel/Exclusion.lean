import Mathlib.Data.List.Nodup
import FrameStream.Powers
import FrameStream.Proofs.Channel.Holder

/-!
# One job at a time on a channel

Channels are opened and forgotten, and jobs begin and end on them, in any order and also where they should not: a job
may end that never began, or a second time, or on another channel. `Journal` is the book of channels with a record of
what it said; no channel is opened under a name that is in use.

No two jobs ever get the same id. A job that began holds the slot of its channel until its end is told or the channel
is forgotten, nobody else can begin there meanwhile or end it in its place, and its end is told once at most.
-/

namespace FrameStream

/-- What happens to a book of channels. -/
inductive BookEvent where
  | opened (conn : String)
  | closed (conn : String)
  /-- A channel is cancelled and stays in the book, as when a guard is dropped and has not yet closed it. -/
  | cancelled (n : ChannelNumber)
  | guardClosed (conn : String) (n : ChannelNumber)
  /-- A job is to begin. -/
  | begun (conn key : String)
  /-- A job is to end. -/
  | ended (conn : String) (id : JobId)
  | shutDown
  deriving DecidableEq, Repr

namespace BookEvent

/-- The event forgets the channel under a name, if there is one. -/
def removes (conn : String) : BookEvent → Bool
  | .closed c => c == conn
  | .guardClosed c _ => c == conn
  | .shutDown => true
  | _ => false

end BookEvent

/-- A book of channels and what it said. -/
structure Journal where
  book : ChannelBook
  /-- The jobs that began, in order, each with the name of its channel. -/
  begun : List (String × ActiveJob) := []
  /-- The ends that were told, in order. -/
  ended : List (String × JobId) := []

namespace Journal

def start (depth : Nat) : Journal := { book := .ofDepth depth }

def step? (j : Journal) : BookEvent → Option Journal
  | .opened conn => if j.book.registered conn then none else some { j with book := (j.book.openChannel conn).2 }
  | .closed conn => some { j with book := (j.book.close conn).2 }
  | .cancelled n => some { j with book := j.book.cancel n }
  | .guardClosed conn n => some { j with book := j.book.closeGuard conn n }
  | .begun conn key =>
    match j.book.beginJob conn key with
    | .ok (id, book) => some { j with book, begun := j.begun ++ [(conn, ⟨id, key⟩)] }
    | .error _ => some j
  | .ended conn id =>
    match j.book.endJob conn id with
    | (true, book) => some { j with book, ended := j.ended ++ [(conn, id)] }
    | (false, book) => some { j with book }
  | .shutDown => some { j with book := j.book.shutdownAll }

def run? (j : Journal) (es : List BookEvent) : Option Journal := es.foldlM step? j

variable {j k : Journal} {e : BookEvent} {es : List BookEvent} {c : String} {job : ActiveJob} {depth : Nat}

theorem run?_cons : j.run? (e :: es) = (j.step? e).bind (·.run? es) := List.foldlM_cons

theorem run?_append (es fs : List BookEvent) : j.run? (es ++ fs) = (j.run? es).bind (·.run? fs) :=
  List.foldlM_append

/-! ## What one event does -/

/-- What one event does to the slots. -/
inductive Change (e : BookEvent) (j k : Journal) : Prop where
  /-- At most the slots of channels that are forgotten are emptied. -/
  | kept (nextId : k.book.nextId = j.book.nextId) (begun : k.begun = j.begun) (ended : k.ended = j.ended)
      (holder : ∀ c, k.book.holder? c = j.book.holder? c ∨ (e.removes c = true ∧ k.book.holder? c = none))
  /-- The empty slot of a channel goes to the next job. -/
  | begins (conn key : String) (empty : j.book.holder? conn = none) (nextId : k.book.nextId = j.book.nextId + 1)
      (begun : k.begun = j.begun ++ [(conn, ⟨j.book.nextId, key⟩)]) (ended : k.ended = j.ended)
      (holder : ∀ c, k.book.holder? c = if c = conn then some ⟨j.book.nextId, key⟩ else j.book.holder? c)
  /-- The job that holds a slot gives it back. -/
  | ends (conn : String) (job : ActiveJob) (held : j.book.holder? conn = some job)
      (nextId : k.book.nextId = j.book.nextId) (begun : k.begun = j.begun)
      (ended : k.ended = j.ended ++ [(conn, job.id)])
      (holder : ∀ c, k.book.holder? c = if c = conn then none else j.book.holder? c)

/-- An event that changes the book alone, and there forgets one channel. -/
theorem Change.of_forgotten {book : ChannelBook} {conn : String} (hremoves : e.removes conn = true)
    (hnext : book.nextId = j.book.nextId)
    (hholder : ∀ c, book.holder? c = if c = conn then none else j.book.holder? c) :
    Change e j { j with book } := by
  refine .kept hnext rfl rfl fun c => ?_
  by_cases hc : c = conn
  · exact .inr ⟨hc ▸ hremoves, by rw [hholder, if_pos hc]⟩
  · exact .inl (by rw [hholder, if_neg hc])

theorem change_opened {conn : String} (hfresh : j.book.registered conn = false) :
    Change (.opened conn) j { j with book := (j.book.openChannel conn).2 } := by
  refine .kept (ChannelBook.nextId_openChannel _ _) rfl rfl fun c => .inl ?_
  rw [ChannelBook.holder?_openChannel]
  split
  · -- Nobody holds the slot of a channel that is not open.
    rename_i hc
    subst hc
    cases hholder : j.book.holder? c with
    | none => rfl
    | some job =>
      rw [ChannelBook.registered_of_holder? hholder] at hfresh
      cases hfresh
  · rfl

theorem step?_change (h : j.step? e = some k) : Change e j k := by
  cases e with
  | opened conn =>
    simp only [step?, Option.ite_none_left_eq_some, Option.some.injEq] at h
    obtain ⟨hfresh, rfl⟩ := h
    exact change_opened (Bool.eq_false_iff.mpr hfresh)
  | closed conn =>
    cases h
    exact .of_forgotten (beq_self_eq_true conn) (ChannelBook.nextId_close _ _) (ChannelBook.holder?_close _ _)
  | cancelled n =>
    cases h
    exact .kept rfl rfl rfl fun c => .inl rfl
  | guardClosed conn n =>
    cases h
    exact .of_forgotten (beq_self_eq_true conn) (ChannelBook.nextId_closeGuard _ _ _)
      fun c => ChannelBook.holder?_closeGuard _ _ c _
  | shutDown =>
    cases h
    exact .kept (ChannelBook.nextId_shutdownAll _) rfl rfl fun c => .inr ⟨rfl, rfl⟩
  | begun conn key =>
    simp only [step?] at h
    split at h
    · rename_i id book hbegin
      cases h
      obtain ⟨hopen, hempty⟩ := ChannelBook.exists_beginJob_iff.mp ⟨id, book, hbegin⟩
      obtain ⟨entry, -, -, rfl, hbook⟩ := ChannelBook.beginJob_eq_ok.mp hbegin
      exact .begins conn key hempty (by rw [hbook]) rfl rfl (ChannelBook.holder?_beginJob hbegin)
    · cases h
      exact .kept rfl rfl rfl fun c => .inl rfl
  | ended conn id =>
    simp only [step?] at h
    split at h
    · rename_i book hend
      cases h
      obtain ⟨entry, job, he, ha, rfl, hbook⟩ := ChannelBook.endJob_eq_true.mp hend
      exact .ends conn job (by simp [ChannelBook.holder?, he, ha]) (by rw [hbook]) rfl rfl
        (ChannelBook.holder?_endJob hend)
    · rename_i book hend
      cases h
      obtain ⟨-, rfl⟩ := ChannelBook.endJob_eq_false.mp hend
      exact .kept rfl rfl rfl fun c => .inl rfl

/-! ## What every run keeps -/

/-- The ids of jobs are given in order, and no job that has ended holds a slot. -/
structure Sound (j : Journal) : Prop where
  next : j.book.nextId = j.begun.length + 1
  ids : j.begun.map (·.2.id) = List.range' 1 j.begun.length
  early : ∀ c job, j.book.holder? c = some job → job.id < j.book.nextId
  /-- No job holds two slots. -/
  single : ∀ c d job other, j.book.holder? c = some job → j.book.holder? d = some other → job.id = other.id → c = d
  unended : ∀ c job, j.book.holder? c = some job → job.id ∉ j.ended.map (·.2)
  past : ∀ id ∈ j.ended.map (·.2), id < j.book.nextId
  once : (j.ended.map (·.2)).Nodup

theorem sound_start (depth : Nat) : (start depth).Sound where
  next := rfl
  ids := rfl
  early _ _ h := nomatch h
  single _ _ _ _ h := nomatch h
  unended _ _ h := nomatch h
  past _ h := nomatch h
  once := List.nodup_nil

theorem Sound.kept (h : j.Sound) (hnext : k.book.nextId = j.book.nextId) (hbegun : k.begun = j.begun)
    (hended : k.ended = j.ended)
    (hbefore : ∀ c job, k.book.holder? c = some job → j.book.holder? c = some job) : k.Sound where
  next := by rw [hnext, hbegun, h.next]
  ids := by rw [hbegun, h.ids]
  early c job hk := hnext ▸ h.early c job (hbefore c job hk)
  single c d job other hc hd := h.single c d job other (hbefore c job hc) (hbefore d other hd)
  unended c job hk := hended ▸ h.unended c job (hbefore c job hk)
  past := by
    rw [hended, hnext]
    exact h.past
  once := hended ▸ h.once

/-- The next job has an id that no job had before. -/
theorem Sound.begins (h : j.Sound) {conn key : String} (hnext : k.book.nextId = j.book.nextId + 1)
    (hbegun : k.begun = j.begun ++ [(conn, ⟨j.book.nextId, key⟩)]) (hended : k.ended = j.ended)
    (hholder : ∀ c, k.book.holder? c = if c = conn then some ⟨j.book.nextId, key⟩ else j.book.holder? c) :
    k.Sound := by
  have holds : ∀ c job, k.book.holder? c = some job →
      (c = conn ∧ job.id = j.book.nextId) ∨ (j.book.holder? c = some job ∧ job.id < j.book.nextId) := by
    intro c job hk
    rw [hholder] at hk
    split at hk
    · rename_i hc
      cases hk
      exact .inl ⟨hc, rfl⟩
    · exact .inr ⟨hk, h.early c job hk⟩
  refine ⟨?_, ?_, fun c job hk => ?_, fun c d job other hc hd hid => ?_, fun c job hk => ?_, fun id hid => ?_,
    hended ▸ h.once⟩
  · rw [hnext, hbegun, h.next, List.length_append, List.length_singleton]
  · rw [hbegun, List.map_append, h.ids, List.length_append, List.length_singleton, List.range'_1_concat, h.next]
    simp [Nat.add_comm]
  · rw [hnext]
    rcases holds c job hk with ⟨-, hid⟩ | ⟨-, hlt⟩
    · exact hid ▸ Nat.lt_succ_self _
    · exact Nat.lt_succ_of_lt hlt
  · rcases holds c job hc with ⟨rfl, hnew⟩ | ⟨hc, hlt⟩ <;> rcases holds d other hd with ⟨rfl, hnew'⟩ | ⟨hd, hlt'⟩
    · rfl
    · exact absurd hlt' (by rw [← hid, hnew]; exact Nat.lt_irrefl _)
    · exact absurd hlt (by rw [hid, hnew']; exact Nat.lt_irrefl _)
    · exact h.single c d job other hc hd hid
  · rw [hended]
    rcases holds c job hk with ⟨-, hid⟩ | ⟨hk, -⟩
    · exact fun hmem => absurd (h.past _ hmem) (by rw [hid]; exact Nat.lt_irrefl _)
    · exact h.unended c job hk
  · rw [hended] at hid
    rw [hnext]
    exact Nat.lt_succ_of_lt (h.past id hid)

/-- The job that ends held a slot, so its end was not told before; and it held no other. -/
theorem Sound.ends (h : j.Sound) {conn : String} (hheld : j.book.holder? conn = some job)
    (hnext : k.book.nextId = j.book.nextId) (hbegun : k.begun = j.begun)
    (hended : k.ended = j.ended ++ [(conn, job.id)])
    (hholder : ∀ c, k.book.holder? c = if c = conn then none else j.book.holder? c) : k.Sound := by
  have holds : ∀ c other, k.book.holder? c = some other → c ≠ conn ∧ j.book.holder? c = some other := by
    intro c other hk
    rw [hholder] at hk
    split at hk
    · cases hk
    · exact ⟨‹_›, hk⟩
  have told : k.ended.map (·.2) = j.ended.map (·.2) ++ [job.id] := by rw [hended, List.map_append]; rfl
  refine ⟨by rw [hnext, hbegun, h.next], by rw [hbegun, h.ids], fun c other hk => ?_,
    fun c d first second hc hd => h.single c d first second (holds c first hc).2 (holds d second hd).2,
    fun c other hk hmem => ?_, fun id hid => ?_, ?_⟩
  · rw [hnext]
    exact h.early c other (holds c other hk).2
  · obtain ⟨hne, hbefore⟩ := holds c other hk
    rw [told, List.mem_append, List.mem_singleton] at hmem
    rcases hmem with hmem | hmem
    · exact h.unended c other hbefore hmem
    · exact hne (h.single c conn other job hbefore hheld hmem)
  · rw [told, List.mem_append, List.mem_singleton] at hid
    rw [hnext]
    rcases hid with hid | rfl
    · exact h.past id hid
    · exact h.early conn job hheld
  · rw [told, ← List.concat_eq_append]
    exact h.once.concat (h.unended conn job hheld)

theorem Sound.step (h : j.Sound) (hs : j.step? e = some k) : k.Sound := by
  cases step?_change hs with
  | kept hnext hbegun hended hholder =>
    refine h.kept hnext hbegun hended fun c job hk => ?_
    rcases hholder c with hsame | ⟨-, hnone⟩
    · exact hsame ▸ hk
    · rw [hnone] at hk
      cases hk
  | begins conn key hempty hnext hbegun hended hholder => exact h.begins hnext hbegun hended hholder
  | ends conn job hheld hnext hbegun hended hholder => exact h.ends hheld hnext hbegun hended hholder

theorem sound_run (h : (start depth).run? es = some j) : j.Sound := by
  have hrun : ∀ {es : List BookEvent} {j k : Journal}, j.Sound → j.run? es = some k → k.Sound := by
    intro es
    induction es with
    | nil =>
      intro j k hj h
      cases h
      exact hj
    | cons e es ih =>
      intro j k hj h
      rw [run?_cons] at h
      obtain ⟨u, hu, hk⟩ := Option.bind_eq_some_iff.mp h
      exact ih (hj.step hu) hk
  exact hrun (sound_start depth) h

/-! ## How long a job holds its slot -/

/-- A job that holds a slot holds it after the next event too, unless its end is told or its channel is forgotten. -/
theorem held_step (hheld : j.book.holder? c = some job) (hs : j.step? e = some k) (hstays : e.removes c = false)
    (hends : (c, job.id) ∉ k.ended) : k.book.holder? c = some job := by
  cases step?_change hs with
  | kept hnext hbegun hended hholder =>
    rcases hholder c with hsame | ⟨hgone, -⟩
    · rw [hsame, hheld]
    · rw [hstays] at hgone
      cases hgone
  | begins conn key hempty hnext hbegun hended hholder =>
    have hne : c ≠ conn := by
      rintro rfl
      rw [hheld] at hempty
      cases hempty
    rw [hholder, if_neg hne, hheld]
  | ends conn other hother hnext hbegun hended hholder =>
    have hne : c ≠ conn := by
      rintro rfl
      rw [hheld] at hother
      cases hother
      exact hends (hended ▸ List.mem_append_right _ (List.mem_singleton.mpr rfl))
    rw [hholder, if_neg hne, hheld]

/-- What was told is not taken back. -/
theorem ended_step (hs : j.step? e = some k) : j.ended <+: k.ended := by
  cases step?_change hs with
  | kept hnext hbegun hended hholder => exact hended ▸ List.prefix_rfl
  | begins conn key hempty hnext hbegun hended hholder => exact hended ▸ List.prefix_rfl
  | ends conn job hheld hnext hbegun hended hholder => exact hended ▸ List.prefix_append _ _

theorem ended_run : ∀ {es : List BookEvent} {j k : Journal}, j.run? es = some k → j.ended <+: k.ended
  | [], _, _, h => by
    cases h
    exact List.prefix_rfl
  | e :: es, j, k, h => by
    rw [run?_cons] at h
    obtain ⟨u, hu, hk⟩ := Option.bind_eq_some_iff.mp h
    exact (ended_step hu).trans (ended_run hk)

theorem held_run : ∀ {es : List BookEvent} {j k : Journal}, j.book.holder? c = some job → j.run? es = some k →
    (∀ e ∈ es, e.removes c = false) → (c, job.id) ∉ k.ended → k.book.holder? c = some job
  | [], _, _, hheld, h, _, _ => by
    cases h
    exact hheld
  | e :: es, j, k, hheld, h, hstays, hends => by
    rw [run?_cons] at h
    obtain ⟨u, hu, hk⟩ := Option.bind_eq_some_iff.mp h
    have hnext := held_step hheld hu (hstays e List.mem_cons_self) fun hmem => hends ((ended_run hk).subset hmem)
    exact held_run hnext hk (fun e he => hstays e (List.mem_cons_of_mem _ he)) hends

end Journal

/-- A job that began has the slot of its channel to itself. -/
theorem Journal.slot_exclusive {es : List BookEvent} {depth : Nat} {j : Journal}
    (h : (Journal.start depth).run? es = some j) (hfew : j.begun.length < twoTo 64) :
    -- No two jobs have the same id, and every id has room in 64 bits.
    (j.begun.map (·.2.id)).Nodup ∧ (∀ id ∈ j.begun.map (·.2.id), 0 < id ∧ id < twoTo 64) ∧
    -- A job begins where a channel is open and nobody holds its slot.
    (∀ conn key, (∃ id b, j.book.beginJob conn key = .ok (id, b)) ↔
      j.book.registered conn = true ∧ j.book.activeKey? conn = none) ∧
    -- From then on it holds the slot, until its end is told or the channel is forgotten.
    (∀ fs conn key gs k id b, es = fs ++ .begun conn key :: gs → (Journal.start depth).run? fs = some k →
      k.book.beginJob conn key = .ok (id, b) → (∀ e ∈ gs, e.removes conn = false) → (conn, id) ∉ j.ended →
      j.book.activeKey? conn = some key ∧ (∀ other, j.book.beginJob conn other = .error (.busy key)) ∧
        ∀ other ≠ id, j.book.endJob conn other = (false, j.book)) ∧
    -- Its end is told once at most.
    (j.ended.map (·.2)).Nodup ∧
    -- A job that could not begin has left no trace, neither in the slots nor in later ids.
    (∀ fs conn key gs k x, es = fs ++ .begun conn key :: gs → (Journal.start depth).run? fs = some k →
      k.book.beginJob conn key = .error x → (Journal.start depth).run? (fs ++ gs) = some j) := by
  have hsound := sound_run h
  refine ⟨?_, ?_, ?_, ?_, hsound.once, ?_⟩
  · rw [hsound.ids]
    exact List.nodup_range'
  · intro id hid
    rw [hsound.ids, List.mem_range'_1] at hid
    exact ⟨hid.1, Nat.lt_of_lt_of_le hid.2 (by omega)⟩
  · intro conn key
    rw [ChannelBook.exists_beginJob_iff, ChannelBook.activeKey?_eq, Option.map_eq_none_iff]
  · rintro fs conn key gs k id b rfl hk hbegin hstays hends
    rw [run?_append, hk, Option.bind_some, run?_cons] at h
    simp only [step?, hbegin, Option.bind_some] at h
    obtain ⟨-, -, -, rfl, -⟩ := ChannelBook.beginJob_eq_ok.mp hbegin
    have hheld : j.book.holder? conn = some ⟨k.book.nextId, key⟩ :=
      held_run (by rw [ChannelBook.holder?_beginJob hbegin, if_pos rfl]) h hstays hends
    refine ⟨by rw [ChannelBook.activeKey?_eq, hheld]; rfl, fun other => ChannelBook.beginJob_of_holder hheld,
      fun other hne => ChannelBook.endJob_eq_false.mpr ⟨fun job hjob => ?_, rfl⟩⟩
    rw [hheld] at hjob
    cases hjob
    exact hne.symm
  · rintro fs conn key gs k x rfl hk hbegin
    rw [run?_append, hk, Option.bind_some, run?_cons] at h
    simp only [step?, hbegin, Option.bind_some] at h
    rw [run?_append, hk, Option.bind_some, h]

/-- A second job is refused; the first ends and is followed by one under the same key, which its late second end does
not touch. -/
def lateEnd : List BookEvent :=
  [.opened "a", .begun "a" "k", .begun "a" "l", .ended "a" 1, .opened "b", .begun "b" "k", .begun "a" "k",
    .ended "a" 1, .ended "a" 2, .cancelled 0, .guardClosed "b" 1]

/-- The job that followed still holds the slot. -/
theorem Journal.slot_exclusive_late :
    ∃ j, (Journal.start 1).run? lateEnd = some j ∧ j.begun.map (·.2.id) = [1, 2, 3] ∧
      j.ended = [("a", 1)] ∧ j.book.activeKey? "a" = some "k" ∧ j.book.endJob "a" 1 = (false, j.book) ∧
      j.book.beginJob "a" "m" = .error (.busy "k") := by
  obtain ⟨j, k, b, hrun, hbegun, hended, hprefix, hbegin⟩ : ∃ j k b, (Journal.start 1).run? lateEnd = some j ∧
      j.begun = [("a", ⟨1, "k"⟩), ("b", ⟨2, "k"⟩), ("a", ⟨3, "k"⟩)] ∧ j.ended = [("a", 1)] ∧
      (Journal.start 1).run? (lateEnd.take 6) = some k ∧ k.book.beginJob "a" "k" = .ok (3, b) :=
    ⟨_, _, _, rfl, rfl, rfl, rfl, rfl⟩
  obtain ⟨-, -, -, hwindow, -, -⟩ := Journal.slot_exclusive hrun (by rw [hbegun]; decide)
  obtain ⟨hkey, hbusy, hother⟩ := hwindow (lateEnd.take 6) "a" "k" (lateEnd.drop 7) k 3 b rfl hprefix hbegin
    (by decide) (by rw [hended]; decide)
  exact ⟨j, hrun, by rw [hbegun]; rfl, hended, hkey, hother 1 (by decide), hbusy "m"⟩

end FrameStream
