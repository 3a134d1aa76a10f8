import FrameStream.Processor.Echo
import FrameStream.Proofs.Pool.Chronicle

/-!
# Slots are conserved

Whatever is submitted, ends, loses its handle or is closed, and in whatever order: once a roster is at rest every
slot is free or held by one running unit, and while the pool is open no unit waits for a slot that is free. What
becomes of a unit depends on its own slot alone, and not on the handles that were dropped (`slots_conserved`). A
roster comes to rest by its own moves, no more of them than units wait.
-/

namespace FrameStream.Roster

variable {w v : Roster} {es fs : List RosterEvent} {e : RosterEvent} {place : Nat} {n : Nat}

/-! ## Coming to rest -/

/-- The number of units that wait. -/
def waiting (w : Roster) : Nat := w.pool.countAt Stage.isWaiting

/-- Whenever a roster moves by itself, one unit fewer waits. -/
theorem waiting_own (hs : w.step? e = some v) (hown : e.isOwn = true) : v.waiting + 1 = w.waiting := by
  have counted : ∀ {place : Nat} {t : Task} {s : Stage}, w.pool.tasks[place]? = some t → t.stage = .waiting →
      s.isWaiting = false → v.pool.tasks = (w.pool.setStage place s).tasks → v.waiting + 1 = w.waiting := by
    intro place t s ht hw hleft htasks
    have hcount := Pool.countAt_setStage ht s Stage.isWaiting
    rw [hw, hleft, Bool.toNat_false, Stage.isWaiting, Bool.toNat_true, Nat.add_zero] at hcount
    have hsame : v.waiting = (w.pool.setStage place s).countAt Stage.isWaiting := by
      rw [waiting, Pool.countAt, Pool.countAt, htasks]
    rw [hsame]
    exact hcount
  obtain ⟨hact, -⟩ := step?_eq_some.mp hs
  cases e with
  | started place =>
    obtain ⟨hstart, ⟨t, ht, hw⟩, -⟩ := Pool.act?_started hact
    obtain ⟨-, -, -, hpool⟩ := Pool.start?_eq_some.mp hstart
    exact counted ht hw rfl (by rw [hpool])
  | refused place =>
    obtain ⟨t, ht, hw, -, hpool⟩ := Pool.refuseAt?_eq_some.mp hact
    exact counted ht hw rfl (by rw [hpool])
  | _ => cases hown

theorem atRest_of_waiting (h : w.waiting = 0) : w.AtRest := by
  intro e hown
  cases hs : w.step? e with
  | none => rfl
  | some v =>
    have hless := waiting_own hs hown
    omega

/-- A roster comes to rest by its own moves, one for each unit that no longer waits. -/
theorem exists_atRest (w : Roster) :
    ∃ fs v, (∀ e ∈ fs, e.isOwn = true) ∧ w.run? fs = some v ∧ v.AtRest ∧ fs.length ≤ w.waiting := by
  induction hn : w.waiting using Nat.strongRecOn generalizing w with
  | ind n ih =>
    by_cases hrest : w.AtRest
    · exact ⟨[], w, by simp, rfl, hrest, Nat.zero_le _⟩
    · obtain ⟨e, hown, hne⟩ : ∃ e, e.isOwn = true ∧ w.step? e ≠ none := by
        simpa [AtRest] using hrest
      obtain ⟨u, hu⟩ := Option.ne_none_iff_exists'.mp hne
      have hless := waiting_own hu hown
      obtain ⟨fs, v, hfs, hrun, hv, hlength⟩ := ih u.waiting (by omega) u rfl
      refine ⟨e :: fs, v, ?_, ?_, hv, ?_⟩
      · intro e' he'
        rcases List.mem_cons.mp he' with rfl | h
        · exact hown
        · exact hfs e' h
      · rw [run?, hu]
        exact hrun
      · rw [List.length_cons]
        omega

/-- No unit waits at rest while the pool is open and a slot is free. -/
theorem AtRest.no_free_slot (h : w.AtRest) (hopen : w.pool.closed = false) {t : Task} (ht : t ∈ w.pool.tasks)
    (hw : t.stage = .waiting) : w.pool.free = 0 := by
  by_contra hfree
  obtain ⟨first, hfirst⟩ := Pool.exists_firstWaiting? ht hw
  have hstart := Pool.start?_eq_some.mpr ⟨hopen, Nat.pos_of_ne_zero hfree, hfirst, rfl⟩
  have hnone := h (.started first) rfl
  simp [step?, Pool.act?, hstart] at hnone

/-- No unit waits at rest once the pool is closed. -/
theorem AtRest.nobody_waits (h : w.AtRest) (hclosed : w.pool.closed = true) {t : Task}
    (ht : w.pool.tasks[place]? = some t) : t.stage ≠ .waiting := by
  intro hw
  have hrefuse := Pool.refuseAt?_eq_some.mpr ⟨t, ht, hw, hclosed, rfl⟩
  have hnone := h (.refused place) rfl
  simp [step?, Pool.act?, hrefuse] at hnone

/-! ## What every event keeps -/

theorem moved_step (hs : w.step? e = some v) : w.pool.Moved v.pool := Pool.act?_moved (step?_eq_some.mp hs).1

theorem chronicle_run (h : (ofSize n).run? es = some w) : Chronicle es w :=
  run?_induction (chronicle_start n) (fun h hs => h.step hs) h

theorem conserved_run (h : (ofSize n).run? es = some w) : w.pool.Conserved ∧ w.pool.size = max n 1 :=
  run?_induction (I := fun _ w => w.pool.Conserved ∧ w.pool.size = max n 1) ⟨Pool.conserved_ofSize n, rfl⟩
    (fun ⟨hslots, hsize⟩ hs => ⟨hslots.moved (moved_step hs), (Pool.size_moved (moved_step hs)).trans hsize⟩) h

/-- Once the pool is closed no unit takes a slot. -/
theorem no_start_of_closed : ∀ {es : List RosterEvent} {w v : Roster}, w.pool.closed = true →
    w.run? es = some v → startsOf es = []
  | [], _, _, _, _ => rfl
  | e :: es, w, v, hclosed, h => by
    obtain ⟨u, hu, hrest⟩ := Option.bind_eq_some_iff.mp h
    have ih := no_start_of_closed ((moved_step hu).closed hclosed) hrest
    have hstart : e.start? = none := by
      cases e with
      | started place =>
        have hopen := (Pool.start?_eq_some.mp (Pool.act?_started (step?_eq_some.mp hu).1).1).1
        rw [hclosed] at hopen
        cases hopen
      | _ => rfl
    rw [startsOf, List.filterMap_cons_none hstart]
    exact ih

theorem no_start_after_close {start : Roster} (h : start.run? (es ++ .closed :: fs) = some w) :
    startsOf fs = [] := by
  rw [run?_append] at h
  obtain ⟨u, -, hrest⟩ := Option.bind_eq_some_iff.mp h
  obtain ⟨v, hv, hlast⟩ := Option.bind_eq_some_iff.mp hrest
  refine no_start_of_closed (w := v) ?_ hlast
  have hpool : u.pool.close = v.pool := Option.some.inj (step?_eq_some.mp hv).1
  rw [← hpool]
  rfl

/-! ## Handles -/

/-- The rosters have the same pool, and the same handles but for one place. -/
def AgreesBut (place : Nat) (w v : Roster) : Prop :=
  w.pool = v.pool ∧ ∀ other, other ≠ place → (other ∈ w.dropped ↔ other ∈ v.dropped)

theorem AgreesBut.outcome? (h : AgreesBut place w v) {other : Nat} (ho : other ≠ place) :
    w.outcome? other = v.outcome? other := by
  simp only [Roster.outcome?, h.1, h.2 other ho]

/-- Whatever happens to one roster can happen to the other, and they agree afterwards. -/
theorem AgreesBut.run : ∀ {es : List RosterEvent} {w w' v : Roster}, AgreesBut place w w' →
    w.run? es = some v → ∃ v', w'.run? es = some v' ∧ AgreesBut place v v'
  | [], _, w', _, h, hrun => by
    cases hrun
    exact ⟨w', rfl, h⟩
  | e :: es, w, w', v, h, hrun => by
    obtain ⟨u, hu, hrest⟩ := Option.bind_eq_some_iff.mp hrun
    obtain ⟨hact, hdropped⟩ := step?_eq_some.mp hu
    rw [h.1] at hact
    have hu' : w'.step? e = some ⟨u.pool, e.drop?.toList ++ w'.dropped⟩ := step?_eq_some.mpr ⟨hact, rfl⟩
    have hagrees : AgreesBut place u ⟨u.pool, e.drop?.toList ++ w'.dropped⟩ := by
      refine ⟨rfl, fun other ho => ?_⟩
      rw [hdropped, List.mem_append, List.mem_append, h.2 other ho]
    obtain ⟨v', hv', hlast⟩ := hagrees.run hrest
    refine ⟨v', ?_, hlast⟩
    rw [run?, hu']
    exact hv'

/-- A handle that was dropped might as well have been kept: the pool is the same, and so is what every other
handle gives. -/
theorem run?_keeping {start : Roster} (h : start.run? (es ++ .dropped place :: fs) = some w) :
    ∃ v, start.run? (es ++ fs) = some v ∧ v.pool = w.pool ∧
      ∀ other, other ≠ place → v.outcome? other = w.outcome? other := by
  rw [run?_append] at h
  obtain ⟨u, hu, hrest⟩ := Option.bind_eq_some_iff.mp h
  obtain ⟨u', hu', hlast⟩ := Option.bind_eq_some_iff.mp hrest
  have hagrees : AgreesBut place u' u := by
    obtain ⟨hpool, hdropped⟩ := step?_eq_some.mp hu'
    refine ⟨(Option.some.inj hpool).symm, fun other ho => ?_⟩
    simp [hdropped, RosterEvent.drop?, ho]
  obtain ⟨v, hv, hagree⟩ := hagrees.run hlast
  refine ⟨v, ?_, hagree.1.symm, fun other ho => (hagree.outcome? ho).symm⟩
  rw [run?_append, hu]
  exact hv

/-! ## The main result -/

/-- A pool of any size, through whatever happens to it. -/
theorem slots_conserved (hrun : (ofSize n).run? es = some w) :
    -- At rest every slot is free or held by a running unit, and no unit waits for a free one.
    (w.pool.size = max n 1 ∧
      (w.AtRest → w.pool.running ≤ w.pool.size ∧ w.pool.free + w.pool.running = w.pool.size ∧
        (w.pool.closed = false → ∀ t ∈ w.pool.tasks, t.stage = .waiting → w.pool.free = 0))) ∧
    -- Units start in the order of their submission, and each gets one outcome at most.
    (w.pool.tasks.map (fun t => (t.processor, t.unit)) = submissionsOf es ∧
      (startsOf es).Pairwise (· < ·) ∧ (endsOf es).Nodup) ∧
    -- A unit that took a slot gets the outcome of its processor; one that never does is turned away once the
    -- pool is closed.
    (∀ place t, w.pool.tasks[place]? = some t →
      (place ∈ startsOf es → t.stage = .running ∨ t.stage = .ended (t.processor.process t.unit)) ∧
      (place ∉ startsOf es → w.AtRest → w.pool.closed = true →
        t.stage = .ended (.failed ⟨t.unit.index, "worker pool is shut down"⟩))) ∧
    -- After the pool was closed no unit starts.
    (∀ before after, es = before ++ .closed :: after → startsOf after = []) ∧
    -- A dropped handle changes nothing for any other unit.
    (∀ before place after, es = before ++ .dropped place :: after →
      ∃ v, (ofSize n).run? (before ++ after) = some v ∧ v.pool = w.pool ∧
        ∀ other, other ≠ place → v.outcome? other = w.outcome? other) ∧
    -- The roster comes to rest by its own moves.
    ∃ fs v, (∀ e ∈ fs, e.isOwn = true) ∧ w.run? fs = some v ∧ v.AtRest ∧ fs.length ≤ w.waiting := by
  obtain ⟨hslots, hsize⟩ := conserved_run hrun
  have chronicle := chronicle_run hrun
  refine ⟨⟨hsize, fun hrest => ?_⟩, ⟨chronicle.submitted, chronicle.inOrder, chronicle.once⟩, ?_, ?_, ?_,
    exists_atRest w⟩
  · have hsum := hslots.slots
    refine ⟨by omega, hsum, fun hopen t ht hw => hrest.no_free_slot hopen ht hw⟩
  · intro place t ht
    exact ⟨chronicle.started ht,
      fun hnever hrest hclosed => chronicle.turned_away ht hnever (hrest.nobody_waits hclosed ht)⟩
  · rintro before after rfl
    exact no_start_after_close hrun
  · rintro before place after rfl
    exact run?_keeping hrun

/-- Two units for one slot. The handle of the first is dropped and the pool is closed while it runs; a third comes
too late. -/
def closingTime : List RosterEvent :=
  [.submitted Echo.processor ⟨7, default⟩, .submitted Echo.processor ⟨8, default⟩, .started 0, .dropped 0, .closed,
    .finished 0, .submitted Echo.processor ⟨9, default⟩, .refused 2, .closed, .refused 1]

/-- A pool of size zero has one slot, which is free again in the end; the units that came too late are turned
away. -/
theorem slots_conserved_closing_time :
    ∃ w, (ofSize 0).run? closingTime = some w ∧ w.AtRest ∧ w.pool.free = 1 ∧ w.outcome? 0 = none ∧
      w.outcome? 1 = some (.failed ⟨8, "worker pool is shut down"⟩) ∧
      w.outcome? 2 = some (.failed ⟨9, "worker pool is shut down"⟩) := by
  obtain ⟨w, hrun, hnobody, hidle, hclosed, ⟨one, hone, height⟩, ⟨two, htwo, hnine⟩, hdropped⟩ : ∃ w,
      (ofSize 0).run? closingTime = some w ∧ w.waiting = 0 ∧ w.pool.running = 0 ∧ w.pool.closed = true ∧
        (∃ t, w.pool.tasks[1]? = some t ∧ t.unit.index = 8) ∧
        (∃ t, w.pool.tasks[2]? = some t ∧ t.unit.index = 9) ∧ w.dropped = [0] :=
    ⟨_, rfl, rfl, rfl, rfl, ⟨_, rfl, rfl⟩, ⟨_, rfl, rfl⟩, rfl⟩
  have hrest := atRest_of_waiting hnobody
  obtain ⟨⟨hsize, hslots⟩, -, houtcomes, -⟩ := slots_conserved hrun
  have turned := fun place t ht hnever => (houtcomes place t ht).2 hnever hrest hclosed
  have hsecond := turned 1 one hone (by decide)
  have hthird := turned 2 two htwo (by decide)
  refine ⟨w, hrun, hrest, ?_, by simp [outcome?, hdropped], ?_, ?_⟩
  · have hsum := (hslots hrest).2.1
    rw [hidle, hsize] at hsum
    simpa using hsum
  · simp [outcome?, hdropped, Pool.outcome?, hone, hsecond, Stage.outcome?, height]
  · simp [outcome?, hdropped, Pool.outcome?, htwo, hthird, Stage.outcome?, hnine]

end FrameStream.Roster
