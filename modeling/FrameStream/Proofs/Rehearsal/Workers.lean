import FrameStream.Proofs.Leads
import FrameStream.Proofs.Pool.Conservation
import FrameStream.Rehearsal.Workers

/-!
# Rehearsals of a pool are runs of its roster

A rehearsal of a pool fixes which of several moves comes first, and ends units by gates that its script opens. Each of
its moves is one event of the roster it stands for, and each of its steps brings the roster to where nothing moves by
itself any more. So whatever holds of all rosters at rest holds of every report, for any script.
-/

namespace FrameStream

theorem Roster.run?_eq_foldlM : ∀ (es : List RosterEvent) (r : Roster), r.run? es = es.foldlM step? r
  | [], r => rfl
  | e :: es, r => by
    rw [run?, List.foldlM_cons]
    exact Option.bind_congr fun r' _ => run?_eq_foldlM es r'

/-- Whoever waits on a closed pool, somebody is turned away. -/
theorem Pool.refuseAt?_eq_none {p : Pool} (h : p.refuse? = none) (place : Nat) : p.refuseAt? place = none := by
  rw [Option.eq_none_iff_forall_ne_some]
  intro q hq
  obtain ⟨t, ht, hwaiting, hclosed, -⟩ := refuseAt?_eq_some.mp hq
  obtain ⟨first, hfirst⟩ := exists_firstWaiting? (List.mem_of_getElem? ht) hwaiting
  obtain ⟨u, hu, -⟩ := firstWaiting?_waiting hfirst
  simp [refuse?, hclosed, hfirst, hu] at h

namespace Rehearsal

/-- The roster is the one the rehearsal is about: nobody dropped the handle of a unit that may still be reported. -/
structure Workers.Shows (w : Workers) (r : Roster) : Prop where
  pool : r.pool = w.pool
  silent : ∀ place ∈ r.dropped, ∃ t, w.pool.tasks[place]? = some t ∧ t.unit.index ∈ w.silent

/-- What a report says of a roster: its free slots, the units that run, and how some units ended, as whoever holds
their handles is told. -/
structure PoolReport.Tells (report : PoolReport) (r : Roster) : Prop where
  available : report.available = r.pool.free
  running : ∀ i, i ∈ report.running ↔ ∃ t ∈ r.pool.tasks, t.stage = .running ∧ t.unit.index = i
  ended : ∀ i o, (i, o) ∈ report.ended →
    ∃ place t, r.pool.tasks[place]? = some t ∧ t.unit.index = i ∧ r.outcome? place = some o

namespace Workers

variable {w w' : Workers} {r : Roster} {pool : Pool}

/-! ## Moves -/

/-- Every move of a rehearsal is one that units make, and no handle is dropped. -/
theorem event_of_move (h : w.move? = some pool) :
    ∃ e, w.pool.act? e = some pool ∧ e.drop? = none ∧ ∃ e', w.pool.step? e' = some pool ∧ e' ≠ .closed := by
  unfold move? at h
  split at h
  · rename_i place p hstart
    cases h
    refine ⟨.started place, by simp [Pool.act?, hstart], rfl, .started place, Pool.start?_startAt? hstart, by simp⟩
  · split at h
    · rename_i place _
      exact ⟨.finished place, h, rfl, .finished place, h, by simp⟩
    · obtain ⟨place, hplace⟩ := Pool.refuse?_refuseAt? h
      exact ⟨.refused place, hplace, rfl, .refused place, hplace, by simp⟩

/-- Units stay in their places, whatever becomes of the pool. -/
theorem silent_moved (hm : w.pool.Moved pool) {silent : List SequenceIndex} (hsilent : w.silent ⊆ silent) {place : Nat}
    (h : ∃ t, w.pool.tasks[place]? = some t ∧ t.unit.index ∈ w.silent) :
    ∃ t, pool.tasks[place]? = some t ∧ t.unit.index ∈ silent := by
  obtain ⟨t, ht, hmem⟩ := h
  obtain ⟨u, hu, hsame⟩ := hm.unit_kept ht
  exact ⟨u, hu, hsilent (hsame ▸ hmem)⟩

theorem Shows.move (h : w.Shows r) (hm : w.move? = some pool) :
    ∃ e r', r.step? e = some r' ∧ Shows { w with pool } r' := by
  obtain ⟨e, hact, hdrop, -⟩ := event_of_move hm
  refine ⟨e, { r with pool }, ?_, rfl, fun place hplace => ?_⟩
  · rw [Roster.step?_eq_some, h.pool, hdrop]
    exact ⟨hact, rfl⟩
  · exact silent_moved (Pool.act?_moved hact) (List.Subset.refl _) (h.silent place hplace)

/-- A move adds to what units have done, and submits and closes nothing. -/
theorem effort_of_move (h : w.move? = some pool) : w.pool.effort < pool.effort ∧
    pool.tasks.length = w.pool.tasks.length ∧ pool.closed = w.pool.closed := by
  obtain ⟨-, -, -, e, hstep, hclosed⟩ := event_of_move h
  refine ⟨Pool.effort_step hstep, Pool.length_step hstep, ?_⟩
  cases hc : w.pool.closed with
  | true => exact Pool.closed_of_step hstep hc
  | false => exact Pool.open_of_step hstep hclosed hc

/-- The moves that are counted suffice: afterwards none is left. -/
theorem move?_settle : ∀ (fuel : Nat) {w : Workers},
    2 * w.pool.tasks.length + w.pool.closed.toNat < w.pool.effort + fuel → (settle fuel w).move? = none
  | 0, w, h => by
    have hleft := w.pool.countAt_le Stage.hasLeft
    have hended := w.pool.countAt_le Stage.hasEnded
    unfold Pool.effort at h
    omega
  | fuel + 1, w, h => by
    unfold settle
    split
    · rename_i pool hm
      obtain ⟨heffort, hlength, hclosed⟩ := effort_of_move hm
      refine move?_settle fuel ?_
      change 2 * pool.tasks.length + pool.closed.toNat < pool.effort + fuel
      rw [hlength, hclosed]
      omega
    · assumption

/-- A roster for which no move is left is at rest. -/
theorem Shows.atRest (h : w.Shows r) (hm : w.move? = none) : r.AtRest := by
  unfold move? at hm
  split at hm
  · cases hm
  · rename_i hstart
    have hrefuse : w.pool.refuse? = none := by
      split at hm
      · rename_i place hreleased
        obtain ⟨hlt, hrunning, -⟩ := List.findIdx?_eq_some_iff_getElem.mp hreleased
        simp only [Bool.and_eq_true] at hrunning
        simp [Pool.finish?, List.getElem?_eq_getElem hlt, hrunning.1] at hm
      · exact hm
    intro e hown
    cases e with
    | started place => simp [Roster.step?, Pool.act?, h.pool, hstart]
    | refused place => simp [Roster.step?, Pool.act?, h.pool, Pool.refuseAt?_eq_none hrefuse]
    | _ => cases hown

theorem Shows.settle : ∀ (fuel : Nat) {w : Workers} {r : Roster}, w.Shows r →
    ∃ r', Leads Roster.step? r r' ∧ (settle fuel w).Shows r'
  | 0, w, r, h => ⟨r, .refl r, h⟩
  | fuel + 1, w, r, h => by
    unfold Workers.settle
    split
    · rename_i pool hm
      obtain ⟨e, r', hs, hshows⟩ := h.move hm
      obtain ⟨r'', hleads, hshows⟩ := Shows.settle fuel hshows
      exact ⟨r'', (Leads.one hs).trans hleads, hshows⟩
    · exact ⟨r, .refl r, h⟩

/-! ## Steps -/

/-- Handles are dropped one by one. -/
theorem leads_drop (r : Roster) : ∀ places : List Nat, ∃ r', Leads Roster.step? r r' ∧ r'.pool = r.pool ∧
    ∀ place ∈ r'.dropped, place ∈ places ∨ place ∈ r.dropped
  | [] => ⟨r, .refl r, rfl, fun _ h => .inr h⟩
  | first :: rest => by
    obtain ⟨r', hleads, hpool, hdropped⟩ := leads_drop r rest
    refine ⟨{ r' with dropped := first :: r'.dropped }, hleads.trans (.one (e := .dropped first) rfl), hpool, ?_⟩
    intro place hplace
    rcases List.mem_cons.mp hplace with rfl | hplace
    · exact .inl List.mem_cons_self
    · exact (hdropped place hplace).imp_left (List.mem_cons_of_mem _)

/-- The effect of a step is a submission, a closing, the dropping of the handles of an index, or nothing. -/
theorem Shows.apply (h : w.Shows r) (s : PoolStep) : ∃ r', Leads Roster.step? r r' ∧ (w.apply s).Shows r' := by
  have one : ∀ {e : RosterEvent} {pool : Pool}, w.pool.act? e = some pool → e.drop? = none →
      ∃ r', Leads Roster.step? r r' ∧ Shows { w with pool } r' := by
    intro e pool hact hdrop
    refine ⟨{ r with pool }, .one (e := e) ?_, rfl, fun place hplace => ?_⟩
    · rw [Roster.step?_eq_some, h.pool, hdrop]
      exact ⟨hact, rfl⟩
    · exact silent_moved (Pool.act?_moved hact) (List.Subset.refl _) (h.silent place hplace)
  cases s with
  | submit index ends => exact one (e := .submitted (scriptedEnding ends) ⟨index, ⟨1, 1, []⟩⟩) rfl rfl
  | close => exact one (e := .closed) rfl rfl
  | finish index => exact ⟨r, .refl r, h.pool, h.silent⟩
  | idle => exact ⟨r, .refl r, h⟩
  | detach index =>
    obtain ⟨r', hleads, hpool, hdropped⟩ := leads_drop r ((List.range w.pool.tasks.length).filter fun place =>
      (w.pool.tasks[place]?).any (·.unit.index = index))
    refine ⟨r', hleads, hpool.trans h.pool, fun place hplace => ?_⟩
    rcases hdropped place hplace with hnew | hold
    · obtain ⟨t, ht, hindex⟩ := (Option.any_eq_true ..).mp (List.mem_filter.mp hnew).2
      exact ⟨t, ht, List.mem_cons.mpr (.inl (of_decide_eq_true hindex))⟩
    · exact silent_moved .unchanged (List.subset_cons_self _ _) (h.silent place hold)

theorem mem_unreported {i : SequenceIndex} {o : UnitOutcome} (h : (i, o) ∈ w.unreported) :
    ∃ (place : Nat) (t : Task), w.pool.tasks[place]? = some t ∧ t.unit.index = i ∧ t.stage.outcome? = some o ∧
      i ∉ w.silent := by
  rw [unreported, List.mem_mergeSort, List.mem_filterMap] at h
  obtain ⟨t, ht, hentry⟩ := h
  obtain ⟨place, hplace⟩ := List.mem_iff_getElem?.mp ht
  split at hentry
  · rename_i o' ho
    split at hentry
    · cases hentry
    · rename_i hsilent
      cases hentry
      exact ⟨place, t, hplace, rfl, ho, by simpa using hsilent⟩
  · cases hentry

/-- A report tells of the roster at which it is made. -/
theorem Shows.tells (h : w.Shows r) : w.report.Tells r where
  available := by rw [h.pool]; rfl
  running i := by
    simp only [report, List.mem_mergeSort, List.mem_map, List.mem_filter, Pool.isRunning_iff, h.pool, and_assoc]
  ended i o hmem := by
    obtain ⟨place, t, ht, hindex, ho, hreported⟩ := mem_unreported hmem
    refine ⟨place, t, h.pool ▸ ht, hindex, ?_⟩
    have hkept : place ∉ r.dropped := fun hdropped => by
      obtain ⟨u, hu, hsilent⟩ := h.silent place hdropped
      rw [ht] at hu
      cases hu
      exact hreported (hindex ▸ hsilent)
    rw [Roster.outcome?, if_neg hkept, h.pool, Pool.outcome?, ht]
    exact ho

theorem Shows.step (h : w.Shows r) (s : PoolStep) :
    ∃ r', Leads Roster.step? r r' ∧ r'.AtRest ∧ (w.step s).1.Tells r' ∧ (w.step s).2.Shows r' := by
  obtain ⟨r₁, hfirst, hshows⟩ := h.apply s
  obtain ⟨r₂, hthen, hshows⟩ := hshows.settle (w.apply s).moves
  have hsettled : (Workers.settle (w.apply s).moves (w.apply s)).move? = none := by
    refine move?_settle _ ?_
    have hclosed := Bool.toNat_le (w.apply s).pool.closed
    have heffort : (w.apply s).pool.closed.toNat ≤ (w.apply s).pool.effort := Nat.le_add_left _ _
    unfold moves
    omega
  refine ⟨r₂, hfirst.trans hthen, hshows.atRest hsettled, hshows.tells, hshows.pool, fun place hplace => ?_⟩
  exact silent_moved .unchanged (List.subset_append_right _ _) (hshows.silent place hplace)

/-- What the steps of a script report. -/
def reports : Workers → List PoolStep → List PoolReport
  | _, [] => []
  | w, s :: rest => (w.step s).1 :: reports (w.step s).2 rest

theorem Shows.reports : ∀ {script : List PoolStep} {w : Workers} {r : Roster}, w.Shows r →
    ∀ report ∈ w.reports script, ∃ r', Leads Roster.step? r r' ∧ r'.AtRest ∧ report.Tells r'
  | s :: rest, w, r, h, report, hmem => by
    obtain ⟨r', hleads, hrest, htells, hshows⟩ := h.step s
    rcases List.mem_cons.mp hmem with rfl | hmem
    · exact ⟨r', hleads, hrest, htells⟩
    · obtain ⟨r'', hleads', hfacts⟩ := hshows.reports report hmem
      exact ⟨r'', hleads.trans hleads', hfacts⟩

/-- Whatever the script, every report tells of a roster at rest to which a run of the pool leads. -/
theorem reports_run (size : Nat) (script : List PoolStep) :
    ∀ report ∈ reports { pool := .ofSize size } script,
      ∃ es r, (Roster.ofSize size).run? es = some r ∧ r.AtRest ∧ report.Tells r := by
  have hstart : Shows { pool := .ofSize size } (Roster.ofSize size) := ⟨rfl, List.forall_mem_nil _⟩
  intro report hmem
  obtain ⟨r, hleads, hrest, htells⟩ := hstart.reports report hmem
  obtain ⟨es, hrun⟩ := hleads
  exact ⟨es, r, (Roster.run?_eq_foldlM es _).trans hrun, hrest, htells⟩

end Workers
end Rehearsal
end FrameStream
