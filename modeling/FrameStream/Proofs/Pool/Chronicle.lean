import Mathlib.Data.List.Nodup
import FrameStream.Proofs.Pool.Roster

/-!
# What a roster shows of its past

`Chronicle` ties a roster to the events behind it. Units stand in the order in which they were submitted, and take
slots in that order. Each unit is where the events have brought it, and gets one outcome at most: a unit that took
a slot gets what its processor decides, one that never did can only have been turned away. Every event that can
happen keeps this (`Chronicle.step`).
-/

namespace FrameStream.Roster

/-- The task at a place stands where the events have brought it. A unit that took a slot ends as its processor
decides; one that never did can only have been turned away. -/
def Fits (es : List RosterEvent) (closed : Bool) (place : Nat) (t : Task) : Prop :=
  match t.stage with
  | .waiting => place ∉ startsOf es ∧ place ∉ endsOf es
  | .running => place ∈ startsOf es ∧ place ∉ endsOf es
  | .ended o => place ∈ endsOf es ∧ ((place ∈ startsOf es ∧ o = t.processor.process t.unit) ∨
      (place ∉ startsOf es ∧ closed = true ∧ o = Pool.refusal t.unit))

structure Chronicle (es : List RosterEvent) (w : Roster) : Prop where
  submitted : w.pool.tasks.map (fun t => (t.processor, t.unit)) = submissionsOf es
  fits : ∀ place t, w.pool.tasks[place]? = some t → Fits es w.pool.closed place t
  inOrder : (startsOf es).Pairwise (· < ·)
  /-- Nobody waits whom a later unit has overtaken. -/
  passed : ∀ place ∈ startsOf es, ∀ i ≤ place, ∃ t, w.pool.tasks[i]? = some t ∧ t.stage ≠ .waiting
  once : (endsOf es).Nodup
  ended : ∀ place ∈ endsOf es, ∃ t, w.pool.tasks[place]? = some t ∧ t.stage ≠ .running

theorem startsOf_concat (es : List RosterEvent) (e : RosterEvent) :
    startsOf (es ++ [e]) = startsOf es ++ e.start?.toList := by
  cases h : e.start? <;> simp [startsOf, h]

theorem endsOf_concat (es : List RosterEvent) (e : RosterEvent) :
    endsOf (es ++ [e]) = endsOf es ++ e.end?.toList := by
  cases h : e.end? <;> simp [endsOf, h]

theorem startsOf_concat_none {es : List RosterEvent} {e : RosterEvent} (h : e.start? = none) :
    startsOf (es ++ [e]) = startsOf es := by
  rw [startsOf_concat, h, Option.toList_none, List.append_nil]

theorem endsOf_concat_none {es : List RosterEvent} {e : RosterEvent} (h : e.end? = none) :
    endsOf (es ++ [e]) = endsOf es := by
  rw [endsOf_concat, h, Option.toList_none, List.append_nil]

section Fits

variable {es : List RosterEvent} {e : RosterEvent} {closed : Bool} {place : Nat} {t : Task}

/-- An event that neither starts nor ends the unit at a place leaves the unit where it stands. -/
theorem Fits.other (h : Fits es closed place t) (hs : place ∉ e.start?) (he : place ∉ e.end?) {closed' : Bool}
    (hc : closed = true → closed' = true) : Fits (es ++ [e]) closed' place t := by
  have hstarts : place ∈ startsOf (es ++ [e]) ↔ place ∈ startsOf es := by
    rw [startsOf_concat, List.mem_append, Option.mem_toList]
    exact or_iff_left hs
  have hends : place ∈ endsOf (es ++ [e]) ↔ place ∈ endsOf es := by
    rw [endsOf_concat, List.mem_append, Option.mem_toList]
    exact or_iff_left he
  unfold Fits at h ⊢
  cases hstage : t.stage with
  | ended o =>
    simp only [hstage, hstarts, hends] at h ⊢
    exact h.imp id (.imp id fun ⟨hstart, hclosed, ho⟩ => ⟨hstart, hc hclosed, ho⟩)
  | _ =>
    simp only [hstage, hstarts, hends] at h ⊢
    exact h

end Fits

theorem chronicle_start (n : Nat) : Chronicle [] (ofSize n) := by
  constructor <;> simp [ofSize, Pool.ofSize, submissionsOf, startsOf, endsOf]

section Chronicle

variable {es : List RosterEvent} {w v : Roster} {e : RosterEvent}

/-- A unit that is submitted joins the others, which stay where they stand. -/
theorem Chronicle.submit (h : Chronicle es w) {processor : Processor} {u : WorkUnit}
    (hpool : v.pool = w.pool.submit processor u) : Chronicle (es ++ [.submitted processor u]) v := by
  have hstarts : startsOf (es ++ [.submitted processor u]) = startsOf es := startsOf_concat_none rfl
  have hends : endsOf (es ++ [.submitted processor u]) = endsOf es := endsOf_concat_none rfl
  have hold : ∀ {i : Nat} {t : Task}, w.pool.tasks[i]? = some t → v.pool.tasks[i]? = some t := by
    intro i t ht
    rw [hpool, Pool.submit, List.getElem?_append_left (List.getElem?_eq_some_iff.mp ht).1]
    exact ht
  constructor
  · rw [hpool, submissionsOf, List.filterMap_append, ← submissionsOf, ← h.submitted]
    simp [Pool.submit, RosterEvent.submission?]
  · intro place t ht
    rw [hpool, Pool.submit, List.getElem?_append] at ht
    split at ht
    · rw [hpool]
      exact (h.fits place t ht).other (by simp [RosterEvent.start?]) (by simp [RosterEvent.end?]) id
    · rename_i hge
      have hplace : t = { processor, unit := u } := by
        rw [List.getElem?_singleton] at ht
        split at ht
        · exact (Option.some.inj ht).symm
        · cases ht
      subst hplace
      refine ⟨fun hin => ?_, fun hin => ?_⟩
      · rw [hstarts] at hin
        obtain ⟨t, ht, -⟩ := h.passed place hin place (Nat.le_refl place)
        exact hge (List.getElem?_eq_some_iff.mp ht).1
      · rw [hends] at hin
        obtain ⟨t, ht, -⟩ := h.ended place hin
        exact hge (List.getElem?_eq_some_iff.mp ht).1
  · rw [hstarts]
    exact h.inOrder
  · intro place hin i hi
    rw [hstarts] at hin
    obtain ⟨t, ht, hne⟩ := h.passed place hin i hi
    exact ⟨t, hold ht, hne⟩
  · rw [hends]
    exact h.once
  · intro place hin
    rw [hends] at hin
    obtain ⟨t, ht, hne⟩ := h.ended place hin
    exact ⟨t, hold ht, hne⟩

/-- An event that moves no unit leaves all as it is. -/
theorem Chronicle.still (h : Chronicle es w) (hsubmits : e.submission? = none) (hstart : e.start? = none)
    (hend : e.end? = none) (htasks : v.pool.tasks = w.pool.tasks)
    (hclosed : w.pool.closed = true → v.pool.closed = true) : Chronicle (es ++ [e]) v := by
  have hstarts : startsOf (es ++ [e]) = startsOf es := startsOf_concat_none hstart
  have hends : endsOf (es ++ [e]) = endsOf es := endsOf_concat_none hend
  constructor
  · rw [htasks, submissionsOf, List.filterMap_append, ← submissionsOf, h.submitted]
    simp [hsubmits]
  · intro place t ht
    rw [htasks] at ht
    exact (h.fits place t ht).other (by simp [hstart]) (by simp [hend]) hclosed
  · rw [hstarts]
    exact h.inOrder
  · rw [hstarts, htasks]
    exact h.passed
  · rw [hends]
    exact h.once
  · rw [hends, htasks]
    exact h.ended

variable {place : Nat} {t : Task} {s : Stage}

/-- The unit at one place starts or gets its outcome; all others stay where they stand. -/
theorem Chronicle.change (h : Chronicle es w) (ht : w.pool.tasks[place]? = some t)
    (htasks : v.pool.tasks = (w.pool.setStage place s).tasks) (hclosed : v.pool.closed = w.pool.closed)
    (hsubmits : e.submission? = none) (hstart : ∀ i ∈ e.start?, i = place) (hend : ∀ i ∈ e.end?, i = place)
    (hleft : s ≠ .waiting) (fits : Fits (es ++ [e]) w.pool.closed place { t with stage := s })
    (inOrder : (startsOf (es ++ [e])).Pairwise (· < ·)) (once : (endsOf (es ++ [e])).Nodup)
    (before : place ∈ e.start? → ∀ i < place, ∃ t, w.pool.tasks[i]? = some t ∧ t.stage ≠ .waiting)
    (settled : place ∈ endsOf (es ++ [e]) → s ≠ .running) : Chronicle (es ++ [e]) v := by
  have hself : v.pool.tasks[place]? = some { t with stage := s } := by
    rw [htasks]
    exact Pool.setStage_tasks_self ht s
  have hother : ∀ {i : Nat}, i ≠ place → v.pool.tasks[i]? = w.pool.tasks[i]? := by
    intro i hi
    rw [htasks]
    exact Pool.setStage_tasks_ne w.pool (Ne.symm hi) s
  have hmoved : ∀ {i : Nat}, (∃ t, w.pool.tasks[i]? = some t ∧ t.stage ≠ .waiting) →
      ∃ t, v.pool.tasks[i]? = some t ∧ t.stage ≠ .waiting := by
    rintro i ⟨t', ht', hne⟩
    by_cases hi : i = place
    · exact ⟨_, hi ▸ hself, hleft⟩
    · exact ⟨t', (hother hi).trans ht', hne⟩
  constructor
  · have hsame := Pool.map_submission_setStage ht s
    rw [← htasks] at hsame
    rw [hsame, submissionsOf, List.filterMap_append, ← submissionsOf, h.submitted]
    simp [hsubmits]
  · intro i t' ht'
    by_cases hi : i = place
    · subst hi
      rw [hself] at ht'
      cases ht'
      rw [hclosed]
      exact fits
    · rw [hother hi] at ht'
      rw [hclosed]
      exact (h.fits i t' ht').other (fun hin => hi (hstart i hin)) (fun hin => hi (hend i hin)) id
  · exact inOrder
  · intro p hp i hi
    by_cases hip : i = place
    · exact ⟨_, hip ▸ hself, hleft⟩
    · apply hmoved
      rw [startsOf, List.filterMap_append, List.mem_append] at hp
      rcases hp with hp | hp
      · exact h.passed p hp i hi
      · have hnew : p ∈ e.start? := by simpa [Option.mem_def] using hp
        obtain rfl := hstart p hnew
        exact before hnew i (Nat.lt_of_le_of_ne hi hip)
  · exact once
  · intro p hp
    by_cases hi : p = place
    · subst hi
      exact ⟨_, hself, settled hp⟩
    · rw [endsOf, List.filterMap_append, List.mem_append] at hp
      rcases hp with hp | hp
      · obtain ⟨t', ht', hne⟩ := h.ended p hp
        exact ⟨t', (hother hi).trans ht', hne⟩
      · exact absurd (hend p (by simpa [Option.mem_def] using hp)) hi

theorem Chronicle.waiting (h : Chronicle es w) (ht : w.pool.tasks[place]? = some t)
    (hs : t.stage = .waiting) : place ∉ startsOf es ∧ place ∉ endsOf es := by
  have hfits := h.fits place t ht
  simp only [Fits, hs] at hfits
  exact hfits

theorem Chronicle.running (h : Chronicle es w) (ht : w.pool.tasks[place]? = some t)
    (hs : t.stage = .running) : place ∈ startsOf es ∧ place ∉ endsOf es := by
  have hfits := h.fits place t ht
  simp only [Fits, hs] at hfits
  exact hfits

/-- A unit that took a slot gets what its processor decides. -/
theorem Chronicle.started (h : Chronicle es w) (ht : w.pool.tasks[place]? = some t)
    (hstarted : place ∈ startsOf es) : t.stage = .running ∨ t.stage = .ended (t.processor.process t.unit) := by
  have hfits := h.fits place t ht
  cases hs : t.stage with
  | waiting => exact absurd hstarted (h.waiting ht hs).1
  | running => exact .inl rfl
  | ended o =>
    simp only [Fits, hs] at hfits
    rcases hfits.2 with ⟨-, rfl⟩ | ⟨hnot, -⟩
    · exact .inr rfl
    · exact absurd hstarted hnot

/-- A unit that never took a slot and waits no more was turned away. -/
theorem Chronicle.turned_away (h : Chronicle es w) (ht : w.pool.tasks[place]? = some t)
    (hnever : place ∉ startsOf es) (hleft : t.stage ≠ .waiting) : t.stage = .ended (Pool.refusal t.unit) := by
  have hfits := h.fits place t ht
  cases hs : t.stage with
  | waiting => exact absurd hs hleft
  | running => exact absurd (h.running ht hs).1 hnever
  | ended o =>
    simp only [Fits, hs] at hfits
    rcases hfits.2 with ⟨hstarted, -⟩ | ⟨-, -, rfl⟩
    · exact absurd hstarted hnever
    · rfl

/-- The unit that takes a slot comes after all that took one before. -/
theorem Chronicle.start (h : Chronicle es w) (hact : w.pool.act? (.started place) = some v.pool) :
    Chronicle (es ++ [.started place]) v := by
  obtain ⟨hstart, ⟨t, ht, hwaiting⟩, hfirst⟩ := Pool.act?_started hact
  obtain ⟨-, -, -, hpool⟩ := Pool.start?_eq_some.mp hstart
  obtain ⟨hnew, hnever⟩ := h.waiting ht hwaiting
  have hends : endsOf (es ++ [.started place]) = endsOf es := endsOf_concat_none rfl
  refine h.change (s := .running) ht (by rw [hpool]) (by rw [hpool]; rfl) rfl (by simp [RosterEvent.start?])
    (by simp [RosterEvent.end?]) (by simp) ⟨?_, ?_⟩ ?_ ?_ ?_ ?_
  · rw [startsOf_concat]
    exact List.mem_append_right _ (List.mem_singleton.mpr rfl)
  · rw [hends]
    exact hnever
  · rw [startsOf_concat, List.pairwise_append]
    refine ⟨h.inOrder, List.pairwise_singleton _ _, fun a ha b hb => ?_⟩
    obtain rfl : b = place := by simpa [RosterEvent.start?] using hb
    -- An earlier start beyond this place would have left nobody waiting here.
    by_contra hle
    obtain ⟨t', ht', hne⟩ := h.passed a ha b (Nat.le_of_not_lt hle)
    rw [ht] at ht'
    cases ht'
    exact hne hwaiting
  · rw [hends]
    exact h.once
  · intro _ i hi
    have hlt : i < w.pool.tasks.length := Nat.lt_trans hi (List.getElem?_eq_some_iff.mp ht).1
    exact ⟨_, List.getElem?_eq_getElem hlt, hfirst i hi _ (List.getElem?_eq_getElem hlt)⟩
  · rw [hends]
    exact fun hin => absurd hin hnever

/-- A unit that gets its outcome had none. -/
theorem Chronicle.ending (h : Chronicle es w) (ht : w.pool.tasks[place]? = some t)
    (hnever : place ∉ endsOf es) {o : UnitOutcome} (htasks : v.pool.tasks = (w.pool.setStage place (.ended o)).tasks)
    (hclosed : v.pool.closed = w.pool.closed) (hsubmits : e.submission? = none) (hstart : e.start? = none)
    (hend : e.end? = some place)
    (fits : (place ∈ startsOf es ∧ o = t.processor.process t.unit) ∨
      (place ∉ startsOf es ∧ w.pool.closed = true ∧ o = Pool.refusal t.unit)) : Chronicle (es ++ [e]) v := by
  have hstarts : startsOf (es ++ [e]) = startsOf es := startsOf_concat_none hstart
  have hends : endsOf (es ++ [e]) = endsOf es ++ [place] := by
    rw [endsOf_concat, hend]
    rfl
  refine h.change (s := .ended o) ht htasks hclosed hsubmits (by simp [hstart]) (by simp [hend])
    (by simp) ⟨?_, ?_⟩ ?_ ?_ (by simp [hstart]) (by simp)
  · rw [hends]
    exact List.mem_append_right _ (List.mem_singleton.mpr rfl)
  · rw [hstarts]
    exact fits
  · rw [hstarts]
    exact h.inOrder
  · rw [hends, ← List.concat_eq_append]
    exact h.once.concat hnever

theorem Chronicle.step (h : Chronicle es w) (hs : w.step? e = some v) : Chronicle (es ++ [e]) v := by
  obtain ⟨hact, -⟩ := step?_eq_some.mp hs
  cases e with
  | submitted processor u => exact h.submit (Option.some.inj hact).symm
  | started place => exact h.start hact
  | finished place =>
    obtain ⟨t, ht, hr, hpool⟩ := Pool.finish?_eq_some.mp hact
    obtain ⟨hstarted, hnever⟩ := h.running ht hr
    exact h.ending ht hnever (by rw [hpool]) (by rw [hpool]; rfl) rfl rfl rfl (.inl ⟨hstarted, rfl⟩)
  | refused place =>
    obtain ⟨t, ht, hw, hc, hpool⟩ := Pool.refuseAt?_eq_some.mp hact
    obtain ⟨hnew, hnever⟩ := h.waiting ht hw
    exact h.ending ht hnever (by rw [hpool]) (by rw [hpool]; rfl) rfl rfl rfl (.inr ⟨hnew, hc, rfl⟩)
  | closed =>
    have hpool : w.pool.close = v.pool := Option.some.inj hact
    exact h.still rfl rfl rfl (by rw [← hpool]; rfl) (by rw [← hpool]; exact fun _ => rfl)
  | dropped place =>
    have hpool : w.pool = v.pool := Option.some.inj hact
    exact h.still rfl rfl rfl (by rw [hpool]) (by rw [hpool]; exact id)

end Chronicle
end FrameStream.Roster
