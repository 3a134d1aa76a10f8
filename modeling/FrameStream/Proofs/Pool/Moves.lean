import FrameStream.Pool

/-!
# The moves of a pool

A pool moves when a waiting unit takes a slot, when a running unit ends, and, once it is closed, when a
waiting unit is turned away. Which of several units moves next is left open here. `Pool.start?` and
`Pool.refuse?` always pick the one that has waited longest, and so are moves of this kind; nothing below
depends on that choice.

`Pool.Holds` says what survives every move: the unit at a place stays there, and once it has ended its
outcome is the one its processor decides, or the refusal of a pool that is closed.
-/

namespace FrameStream

/-- What can happen to a pool after units were submitted. -/
inductive PoolEvent where
  /-- The unit at a place takes a slot. -/
  | started (place : Nat)
  /-- The unit at a place ends and gives back its slot. -/
  | finished (place : Nat)
  /-- The unit at a place is turned away. -/
  | refused (place : Nat)
  /-- The pool is closed. -/
  | closed
  deriving DecidableEq, Repr

namespace Pool

/-- The waiting unit at a place takes a slot, if the pool is open and one is free. -/
def startAt? (p : Pool) (place : Nat) : Option Pool :=
  match p.tasks[place]? with
  | some t =>
    if t.stage.isWaiting && !p.closed && decide (0 < p.free) then
      some { p.setStage place .running with free := p.free - 1 }
    else none
  | none => none

/-- The waiting unit at a place is turned away, if the pool is closed. -/
def refuseAt? (p : Pool) (place : Nat) : Option Pool :=
  match p.tasks[place]? with
  | some t => if t.stage.isWaiting && p.closed then some (p.setStage place (.ended (refusal t.unit))) else none
  | none => none

/-- One move of a pool, if it can be made. A pool is closed once. -/
def step? (p : Pool) : PoolEvent → Option Pool
  | .started place => p.startAt? place
  | .finished place => p.finish? place
  | .refused place => p.refuseAt? place
  | .closed => if p.closed then none else some p.close

theorem setStage_tasks_self {p : Pool} {place : Nat} {t : Task} (h : p.tasks[place]? = some t) (s : Stage) :
    (p.setStage place s).tasks[place]? = some { t with stage := s } := by
  simp [setStage, h]

theorem setStage_tasks_ne (p : Pool) {place other : Nat} (h : place ≠ other) (s : Stage) :
    (p.setStage place s).tasks[other]? = p.tasks[other]? := by
  simp [setStage, h]

/-- A task keeps its processor and its unit. -/
theorem map_submission_setStage {p : Pool} {place : Nat} {t : Task} (h : p.tasks[place]? = some t) (s : Stage) :
    (p.setStage place s).tasks.map (fun t => (t.processor, t.unit)) =
      p.tasks.map fun t => (t.processor, t.unit) := by
  apply List.ext_getElem?
  intro i
  rw [List.getElem?_map, List.getElem?_map]
  by_cases hi : i = place
  · subst hi
    rw [setStage_tasks_self h, h]
    rfl
  · rw [setStage_tasks_ne p (Ne.symm hi)]

theorem isWaiting_iff (s : Stage) : s.isWaiting = true ↔ s = .waiting := by
  cases s <;> simp [Stage.isWaiting]

theorem isRunning_iff (s : Stage) : s.isRunning = true ↔ s = .running := by
  cases s <;> simp [Stage.isRunning]

theorem startAt?_eq_some {p q : Pool} {place : Nat} :
    p.startAt? place = some q ↔ ∃ t, p.tasks[place]? = some t ∧ t.stage = .waiting ∧ p.closed = false ∧
      0 < p.free ∧ q = { p.setStage place .running with free := p.free - 1 } := by
  unfold startAt?
  cases p.tasks[place]? with
  | none => simp
  | some t =>
    simp only [Option.ite_none_right_eq_some, Bool.and_eq_true, isWaiting_iff, Bool.not_eq_true',
      decide_eq_true_eq, Option.some.injEq]
    constructor
    · rintro ⟨⟨⟨hw, hc⟩, hf⟩, rfl⟩
      exact ⟨t, rfl, hw, hc, hf, rfl⟩
    · rintro ⟨_, rfl, hw, hc, hf, rfl⟩
      exact ⟨⟨⟨hw, hc⟩, hf⟩, rfl⟩

theorem finish?_eq_some {p q : Pool} {place : Nat} :
    p.finish? place = some q ↔ ∃ t, p.tasks[place]? = some t ∧ t.stage = .running ∧
      q = { p.setStage place (.ended (t.processor.process t.unit)) with free := p.free + 1 } := by
  unfold finish?
  cases p.tasks[place]? with
  | none => simp
  | some t =>
    simp only [Option.ite_none_right_eq_some, isRunning_iff, Option.some.injEq]
    constructor
    · rintro ⟨hr, rfl⟩
      exact ⟨t, rfl, hr, rfl⟩
    · rintro ⟨_, rfl, hr, rfl⟩
      exact ⟨hr, rfl⟩

theorem refuseAt?_eq_some {p q : Pool} {place : Nat} :
    p.refuseAt? place = some q ↔ ∃ t, p.tasks[place]? = some t ∧ t.stage = .waiting ∧ p.closed = true ∧
      q = p.setStage place (.ended (refusal t.unit)) := by
  unfold refuseAt?
  cases p.tasks[place]? with
  | none => simp
  | some t =>
    simp only [Option.ite_none_right_eq_some, Bool.and_eq_true, isWaiting_iff, Option.some.injEq]
    constructor
    · rintro ⟨⟨hw, hc⟩, rfl⟩
      exact ⟨t, rfl, hw, hc, rfl⟩
    · rintro ⟨_, rfl, hw, hc, rfl⟩
      exact ⟨⟨hw, hc⟩, rfl⟩

theorem firstWaiting?_waiting {p : Pool} {place : Nat} (h : p.firstWaiting? = some place) :
    ∃ t, p.tasks[place]? = some t ∧ t.stage = .waiting := by
  obtain ⟨hlt, hw, -⟩ := List.findIdx?_eq_some_iff_getElem.mp h
  exact ⟨p.tasks[place], List.getElem?_eq_getElem hlt, (isWaiting_iff _).mp hw⟩

/-- Whoever waits, somebody has waited longest. -/
theorem exists_firstWaiting? {p : Pool} {t : Task} (ht : t ∈ p.tasks) (hw : t.stage = .waiting) :
    ∃ first, p.firstWaiting? = some first := by
  rw [← Option.isSome_iff_exists, firstWaiting?, List.findIdx?_isSome, List.any_eq_true]
  exact ⟨t, ht, (isWaiting_iff _).mpr hw⟩

theorem start?_startAt? {p q : Pool} {place : Nat} (h : p.start? = some (place, q)) :
    p.step? (.started place) = some q := by
  unfold start? at h
  split at h
  · cases h
  · rename_i hc
    simp only [Bool.or_eq_true, decide_eq_true_eq, not_or, Bool.not_eq_true] at hc
    obtain ⟨first, hf, he⟩ := Option.map_eq_some_iff.mp h
    cases he
    obtain ⟨t, ht, hw⟩ := firstWaiting?_waiting hf
    exact startAt?_eq_some.mpr ⟨t, ht, hw, hc.1, Nat.pos_of_ne_zero hc.2, rfl⟩

theorem refuse?_refuseAt? {p q : Pool} (h : p.refuse? = some q) :
    ∃ place, p.step? (.refused place) = some q := by
  unfold refuse? at h
  split at h
  · rename_i hc
    cases hf : p.firstWaiting? with
    | none => simp [hf] at h
    | some place =>
      obtain ⟨t, ht, hw⟩ := firstWaiting?_waiting hf
      simp only [hf, ht, Option.map_some, Option.some.injEq] at h
      exact ⟨place, refuseAt?_eq_some.mpr ⟨t, ht, hw, hc, h.symm⟩⟩
  · cases h

/-- Every move changes the stage of one unit, or closes the pool. -/
theorem step?_cases {p q : Pool} {e : PoolEvent} (h : p.step? e = some q) :
    (∃ place t s, p.tasks[place]? = some t ∧ q.tasks = (p.setStage place s).tasks ∧ q.closed = p.closed ∧
      ∀ o, s = .ended o → o = t.processor.process t.unit ∨ (p.closed = true ∧ o = refusal t.unit)) ∨
    (e = .closed ∧ p.closed = false ∧ q = p.close) := by
  cases e with
  | started place =>
    obtain ⟨t, ht, -, -, -, rfl⟩ := startAt?_eq_some.mp h
    exact .inl ⟨place, t, .running, ht, rfl, rfl, by simp⟩
  | finished place =>
    obtain ⟨t, ht, -, rfl⟩ := finish?_eq_some.mp h
    exact .inl ⟨place, t, _, ht, rfl, rfl, fun o ho => .inl (by cases ho; rfl)⟩
  | refused place =>
    obtain ⟨t, ht, -, hc, rfl⟩ := refuseAt?_eq_some.mp h
    exact .inl ⟨place, t, _, ht, rfl, rfl, fun o ho => .inr ⟨hc, by cases ho; rfl⟩⟩
  | closed =>
    simp only [step?] at h
    split at h
    · cases h
    · rename_i hc
      cases h
      exact .inr ⟨rfl, by simpa using hc, rfl⟩

/-- The unit `u` was submitted for `processor` and stands at a place. If it has ended, then as its processor
decides or because the pool is closed. -/
def Holds (p : Pool) (place : Nat) (processor : Processor) (u : WorkUnit) : Prop :=
  ∃ s, p.tasks[place]? = some ⟨processor, u, s⟩ ∧
    ∀ o, s = .ended o → o = processor.process u ∨ (p.closed = true ∧ o = refusal u)

/-- A submitted unit stands at the place after all others. -/
theorem holds_submit (p : Pool) (processor : Processor) (u : WorkUnit) :
    (p.submit processor u).Holds p.tasks.length processor u :=
  ⟨.waiting, by simp [submit], fun _ h => nomatch h⟩

section Holds

variable {p q : Pool} {place : Nat} {processor : Processor} {u : WorkUnit}

theorem Holds.submit (h : p.Holds place processor u) (other : Processor) (v : WorkUnit) :
    (p.submit other v).Holds place processor u := by
  obtain ⟨s, hs, ho⟩ := h
  have hlt : place < p.tasks.length := (List.getElem?_eq_some_iff.mp hs).1
  refine ⟨s, ?_, ho⟩
  simp only [Pool.submit]
  rw [List.getElem?_append_left hlt]
  exact hs

/-- Every move of the pool leaves a unit where it is. -/
theorem Holds.step (h : p.Holds place processor u) {e : PoolEvent} (hs : p.step? e = some q) :
    q.Holds place processor u := by
  obtain ⟨s, ht, ho⟩ := h
  rcases step?_cases hs with ⟨at', t, s', hat, htasks, hclosed, hnew⟩ | ⟨-, hopen, rfl⟩
  · by_cases he : at' = place
    · subst he
      rw [hat] at ht
      cases ht
      refine ⟨s', ?_, ?_⟩
      · rw [htasks, setStage_tasks_self hat]
      · rw [hclosed]
        exact hnew
    · refine ⟨s, ?_, ?_⟩
      · rw [htasks, setStage_tasks_ne p he]
        exact ht
      · rw [hclosed]
        exact ho
  · refine ⟨s, ht, fun o h => ?_⟩
    rcases ho o h with hp | ⟨hc, -⟩
    · exact .inl hp
    · rw [hopen] at hc
      cases hc

theorem Holds.outcome (h : p.Holds place processor u) {o : UnitOutcome} (ho : p.outcome? place = some o) :
    o = processor.process u ∨ (p.closed = true ∧ o = refusal u) := by
  obtain ⟨s, ht, hs⟩ := h
  simp only [outcome?, ht] at ho
  cases s with
  | waiting => simp [Stage.outcome?] at ho
  | running => simp [Stage.outcome?] at ho
  | ended o' =>
    cases ho
    exact hs o rfl

end Holds

theorem closed_of_step {p q : Pool} {e : PoolEvent} (h : p.step? e = some q) (hc : p.closed = true) :
    q.closed = true := by
  rcases step?_cases h with ⟨-, -, -, -, -, hq, -⟩ | ⟨-, -, rfl⟩
  · rw [hq, hc]
  · rfl

theorem open_of_step {p q : Pool} {e : PoolEvent} (h : p.step? e = some q) (he : e ≠ .closed)
    (hc : p.closed = false) : q.closed = false := by
  rcases step?_cases h with ⟨-, -, -, -, -, hq, -⟩ | ⟨hclosed, -, -⟩
  · rw [hq, hc]
  · exact absurd hclosed he

/-- What can become of a pool in one step of those who use it. -/
inductive Moved (p : Pool) : Pool → Prop where
  | unchanged : Moved p p
  | submitted (processor : Processor) (u : WorkUnit) : Moved p (p.submit processor u)
  | stepped {q : Pool} (e : PoolEvent) (h : p.step? e = some q) : Moved p q

theorem Holds.moved {p q : Pool} {place : Nat} {processor : Processor} {u : WorkUnit}
    (h : p.Holds place processor u) (hm : p.Moved q) : q.Holds place processor u := by
  cases hm with
  | unchanged => exact h
  | submitted other v => exact h.submit other v
  | stepped e hs => exact h.step hs

/-- Whatever becomes of a unit, it stays in its place. -/
theorem Moved.unit_kept {p q : Pool} {place : Nat} {t : Task} (hm : p.Moved q) (ht : p.tasks[place]? = some t) :
    ∃ u, q.tasks[place]? = some u ∧ u.unit = t.unit := by
  cases hm with
  | unchanged => exact ⟨t, ht, rfl⟩
  | submitted processor u =>
    exact ⟨t, (List.getElem?_append_left (List.getElem?_eq_some_iff.mp ht).1).trans ht, rfl⟩
  | stepped e hs =>
    rcases step?_cases hs with ⟨other, u, s, hu, htasks, -, -⟩ | ⟨-, -, rfl⟩
    · rw [htasks]
      by_cases hother : other = place
      · subst hother
        rw [hu] at ht
        cases ht
        exact ⟨_, setStage_tasks_self hu s, rfl⟩
      · exact ⟨t, (setStage_tasks_ne p hother s).trans ht, rfl⟩
    · exact ⟨t, ht, rfl⟩

theorem Moved.closed {p q : Pool} (hm : p.Moved q) (hc : p.closed = true) : q.closed = true := by
  cases hm with
  | unchanged => exact hc
  | submitted other v => exact hc
  | stepped e hs => exact closed_of_step hs hc

end Pool
end FrameStream
