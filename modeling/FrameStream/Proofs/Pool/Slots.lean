import FrameStream.Proofs.Pool.Moves

/-!
# Slots and progress of a pool

Free slots and running units add up to the size of the pool, whatever happens. So a pool in which some unit
has not ended can move, and as every unit moves twice at most, `exists_outcome` brings any unit to its end.
-/

namespace FrameStream

namespace Stage

def hasLeft (s : Stage) : Bool := !s.isWaiting

def hasEnded (s : Stage) : Bool := s.outcome?.isSome

end Stage

namespace Pool

/-- The number of units at a stage of some kind. -/
def countAt (p : Pool) (f : Stage → Bool) : Nat := p.tasks.countP fun t => f t.stage

theorem countP_modify_stage (f : Stage → Bool) (s : Stage) :
    ∀ {tasks : List Task} {place : Nat} {t : Task}, tasks[place]? = some t →
      (tasks.modify place fun t => { t with stage := s }).countP (fun t => f t.stage) +
        (f t.stage).toNat = tasks.countP (fun t => f t.stage) + (f s).toNat
  | [], _, _, h => by simp at h
  | t :: rest, 0, _, h => by
    cases h
    cases hs : f s <;> cases ht : f t.stage <;> simp [List.modify, hs, ht]
  | other :: rest, place + 1, t, h => by
    have ih := countP_modify_stage f s (show rest[place]? = some t by simpa using h)
    simp only [List.modify_succ_cons, List.countP_cons]
    omega

theorem countAt_setStage {p : Pool} {place : Nat} {t : Task} (h : p.tasks[place]? = some t) (s : Stage)
    (f : Stage → Bool) :
    (p.setStage place s).countAt f + (f t.stage).toNat = p.countAt f + (f s).toNat :=
  countP_modify_stage f s h

theorem countAt_submit (p : Pool) (processor : Processor) (u : WorkUnit) (f : Stage → Bool) :
    (p.submit processor u).countAt f = p.countAt f + (f .waiting).toNat := by
  cases h : f .waiting <;> simp [countAt, submit, h]

theorem countAt_le (p : Pool) (f : Stage → Bool) : p.countAt f ≤ p.tasks.length := List.countP_le_length

theorem running_eq (p : Pool) : p.running = p.countAt Stage.isRunning := rfl

/-- Every slot is free or held by one running unit, and there is a slot. -/
structure Conserved (p : Pool) : Prop where
  slots : p.free + p.running = p.size
  positive : 0 < p.size

theorem conserved_ofSize (n : Nat) : (ofSize n).Conserved := by
  constructor
  · simp [ofSize, running]
  · simp only [ofSize]
    omega

theorem Conserved.submit {p : Pool} (h : p.Conserved) (processor : Processor) (u : WorkUnit) :
    (p.submit processor u).Conserved := by
  refine ⟨?_, h.positive⟩
  have hr : (p.submit processor u).running = p.running := countAt_submit p processor u Stage.isRunning
  rw [hr]
  exact h.slots

/-- A unit that starts takes one slot, and a unit that ends gives one back. -/
theorem Conserved.step {p q : Pool} {e : PoolEvent} (h : p.Conserved) (hs : p.step? e = some q) :
    q.Conserved := by
  obtain ⟨slots, positive⟩ := h
  cases e with
  | started place =>
    obtain ⟨t, ht, hw, -, hfree, rfl⟩ := startAt?_eq_some.mp hs
    refine ⟨?_, positive⟩
    have hc := countAt_setStage ht .running Stage.isRunning
    simp only [hw, Stage.isRunning, Bool.toNat_false, Bool.toNat_true] at hc
    change p.free - 1 + (p.setStage place .running).countAt Stage.isRunning = p.size
    rw [running_eq] at slots
    omega
  | finished place =>
    obtain ⟨t, ht, hr, rfl⟩ := finish?_eq_some.mp hs
    refine ⟨?_, positive⟩
    have hc := countAt_setStage ht (.ended (t.processor.process t.unit)) Stage.isRunning
    simp only [hr, Stage.isRunning, Bool.toNat_false, Bool.toNat_true] at hc
    change p.free + 1 + (p.setStage place _).countAt Stage.isRunning = p.size
    rw [running_eq] at slots
    omega
  | refused place =>
    obtain ⟨t, ht, hw, -, rfl⟩ := refuseAt?_eq_some.mp hs
    refine ⟨?_, positive⟩
    have hc := countAt_setStage ht (.ended (refusal t.unit)) Stage.isRunning
    simp only [hw, Stage.isRunning, Bool.toNat_false] at hc
    change p.free + (p.setStage place _).countAt Stage.isRunning = p.size
    rw [running_eq] at slots
    omega
  | closed =>
    simp only [step?] at hs
    split at hs
    · cases hs
    · cases hs
      exact ⟨slots, positive⟩

theorem Conserved.moved {p q : Pool} (h : p.Conserved) (hm : p.Moved q) : q.Conserved := by
  cases hm with
  | unchanged => exact h
  | submitted processor u => exact h.submit processor u
  | stepped e hs => exact h.step hs

/-! ## What is left to do -/

/-- The moves a pool has made, closing included. A unit that is turned away makes two at once. -/
def effort (p : Pool) : Nat := p.countAt Stage.hasLeft + p.countAt Stage.hasEnded + p.closed.toNat

theorem effort_le (p : Pool) : p.effort ≤ 2 * p.tasks.length + 1 := by
  have hl := countAt_le p Stage.hasLeft
  have he := countAt_le p Stage.hasEnded
  have hc := Bool.toNat_le p.closed
  unfold effort
  omega

theorem effort_le_of_open (p : Pool) (ho : p.closed = false) : p.effort ≤ 2 * p.tasks.length := by
  have hl := countAt_le p Stage.hasLeft
  have he := countAt_le p Stage.hasEnded
  unfold effort
  rw [ho, Bool.toNat_false]
  omega

theorem effort_submit (p : Pool) (processor : Processor) (u : WorkUnit) :
    (p.submit processor u).effort = p.effort := by
  simp only [effort, countAt_submit, Stage.hasLeft, Stage.hasEnded, Stage.isWaiting, Stage.outcome?]
  rfl

theorem effort_step {p q : Pool} {e : PoolEvent} (hs : p.step? e = some q) : p.effort < q.effort := by
  cases e with
  | started place =>
    obtain ⟨t, ht, hw, -, -, rfl⟩ := startAt?_eq_some.mp hs
    have hl := countAt_setStage ht .running Stage.hasLeft
    have he := countAt_setStage ht .running Stage.hasEnded
    simp only [hw, Stage.hasLeft, Stage.hasEnded, Stage.isWaiting, Stage.outcome?, Bool.not_true,
      Bool.not_false, Option.isSome_none, Bool.toNat_false, Bool.toNat_true] at hl he
    change p.effort < (p.setStage place .running).countAt Stage.hasLeft +
      (p.setStage place .running).countAt Stage.hasEnded + p.closed.toNat
    unfold effort
    omega
  | finished place =>
    obtain ⟨t, ht, hr, rfl⟩ := finish?_eq_some.mp hs
    have hl := countAt_setStage ht (.ended (t.processor.process t.unit)) Stage.hasLeft
    have he := countAt_setStage ht (.ended (t.processor.process t.unit)) Stage.hasEnded
    simp only [hr, Stage.hasLeft, Stage.hasEnded, Stage.isWaiting, Stage.outcome?, Bool.not_false,
      Option.isSome_none, Option.isSome_some, Bool.toNat_false, Bool.toNat_true] at hl he
    change p.effort < (p.setStage place _).countAt Stage.hasLeft +
      (p.setStage place _).countAt Stage.hasEnded + p.closed.toNat
    unfold effort
    omega
  | refused place =>
    obtain ⟨t, ht, hw, -, rfl⟩ := refuseAt?_eq_some.mp hs
    have hl := countAt_setStage ht (.ended (refusal t.unit)) Stage.hasLeft
    have he := countAt_setStage ht (.ended (refusal t.unit)) Stage.hasEnded
    simp only [hw, Stage.hasLeft, Stage.hasEnded, Stage.isWaiting, Stage.outcome?, Bool.not_true,
      Bool.not_false, Option.isSome_none, Option.isSome_some, Bool.toNat_false, Bool.toNat_true] at hl he
    change p.effort < (p.setStage place _).countAt Stage.hasLeft +
      (p.setStage place _).countAt Stage.hasEnded + p.closed.toNat
    unfold effort
    omega
  | closed =>
    simp only [step?] at hs
    split at hs
    · cases hs
    · rename_i hc
      cases hs
      change p.effort < p.countAt Stage.hasLeft + p.countAt Stage.hasEnded + true.toNat
      simp only [effort, hc, Bool.toNat_false, Bool.toNat_true]
      omega

theorem length_step {p q : Pool} {e : PoolEvent} (hs : p.step? e = some q) :
    q.tasks.length = p.tasks.length := by
  rcases step?_cases hs with ⟨place, t, s, -, htasks, -, -⟩ | ⟨-, -, rfl⟩
  · rw [htasks]
    simp [setStage]
  · rfl

/-- A pool in which a unit has not ended can move: the unit itself if it runs, if a slot is free or if the pool
is closed, and else a unit that holds a slot. -/
theorem exists_step {p : Pool} (hc : p.Conserved) {place : Nat} {t : Task} (ht : p.tasks[place]? = some t)
    (hn : t.stage.outcome? = none) : ∃ e q, e ≠ .closed ∧ p.step? e = some q := by
  cases hs : t.stage with
  | waiting =>
    cases ho : p.closed with
    | true => exact ⟨.refused place, _, by simp, refuseAt?_eq_some.mpr ⟨t, ht, hs, ho, rfl⟩⟩
    | false =>
      by_cases hf : 0 < p.free
      · exact ⟨.started place, _, by simp, startAt?_eq_some.mpr ⟨t, ht, hs, ho, hf, rfl⟩⟩
      · -- No slot is free, so some unit holds one.
        have hr : 0 < p.running := by
          have hslots := hc.slots
          have hpos := hc.positive
          omega
        obtain ⟨other, hmem, hrun⟩ := List.countP_pos_iff.mp hr
        obtain ⟨i, hi⟩ := List.mem_iff_getElem?.mp hmem
        exact ⟨.finished i, _, by simp, finish?_eq_some.mpr ⟨other, hi, (isRunning_iff _).mp hrun, rfl⟩⟩
  | running => exact ⟨.finished place, _, by simp, finish?_eq_some.mpr ⟨t, ht, hs, rfl⟩⟩
  | ended o => simp [hs, Stage.outcome?] at hn

def run? : Pool → List PoolEvent → Option Pool
  | p, [] => some p
  | p, e :: es => (p.step? e).bind fun q => run? q es

/-- Any unit can be brought to its end without closing the pool. -/
theorem exists_outcome {p : Pool} (hc : p.Conserved) {place : Nat} (hp : place < p.tasks.length) :
    ∃ es q o, p.run? es = some q ∧ (∀ e ∈ es, e ≠ .closed) ∧ q.outcome? place = some o := by
  -- By induction on the moves that are left.
  induction hn : 2 * p.tasks.length + 1 - p.effort using Nat.strongRecOn generalizing p with
  | ind n ih =>
    cases hs : p.tasks[place].stage.outcome? with
    | some o =>
      refine ⟨[], p, o, rfl, by simp, ?_⟩
      simp only [outcome?, List.getElem?_eq_getElem hp]
      exact hs
    | none =>
      obtain ⟨e, q, he, hq⟩ := exists_step hc (List.getElem?_eq_getElem hp) hs
      have hlt := effort_step hq
      have hle := effort_le q
      have hlen := length_step hq
      obtain ⟨es, r, o, hr, hes, hout⟩ := ih (2 * q.tasks.length + 1 - q.effort) (by omega)
        (hc.step hq) (by omega) rfl
      refine ⟨e :: es, r, o, ?_, ?_, hout⟩
      · simp only [run?, hq, Option.bind_some, hr]
      · intro e' he'
        rcases List.mem_cons.mp he' with rfl | h
        · exact he
        · exact hes e' h

end Pool
end FrameStream
