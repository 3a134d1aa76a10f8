import FrameStream.Proofs.Pool.Slots

/-!
# A pool that is left alone

A unit stays in its place from its submission on, whoever submitted it and whatever became of them. A pool to which
nothing is submitted any more makes a bounded number of moves, in whatever order; when it can make none, every unit has
ended and every slot is free again.
-/

namespace FrameStream.Pool

variable {p q : Pool} {place : Nat} {t : Task} {es : List PoolEvent}

/-- Every unit that has ended did so as its processor decides, or because the pool is closed. -/
def Faithful (p : Pool) : Prop :=
  ∀ (place : Nat) (t : Task), p.tasks[place]? = some t → p.Holds place t.processor t.unit

theorem faithful_ofSize (n : Nat) : (ofSize n).Faithful := fun _ _ h => nomatch h

/-- A place that is taken is the place of a unit that was there before, or of the one that was submitted. -/
theorem Moved.before (hm : p.Moved q) (ht : q.tasks[place]? = some t) :
    place < p.tasks.length ∨ ∃ processor u, q = p.submit processor u ∧ place = p.tasks.length := by
  have hlt := (List.getElem?_eq_some_iff.mp ht).1
  cases hm with
  | unchanged => exact .inl hlt
  | submitted processor u =>
    by_cases hplace : place < p.tasks.length
    · exact .inl hplace
    · simp only [submit, List.length_append, List.length_singleton] at hlt
      exact .inr ⟨processor, u, rfl, by omega⟩
  | stepped e hs => exact .inl (length_step hs ▸ hlt)

theorem Moved.length_le (hm : p.Moved q) : p.tasks.length ≤ q.tasks.length := by
  cases hm with
  | unchanged => exact Nat.le_refl _
  | submitted processor u => simp [submit]
  | stepped e hs => exact Nat.le_of_eq (length_step hs).symm

/-- The unit at a place is what is held there. -/
theorem Holds.task {processor : Processor} {u : WorkUnit} (h : p.Holds place processor u)
    (ht : p.tasks[place]? = some t) : t.processor = processor ∧ t.unit = u := by
  obtain ⟨s, hs, -⟩ := h
  rw [ht] at hs
  cases hs
  exact ⟨rfl, rfl⟩

theorem Faithful.moved (h : p.Faithful) (hm : p.Moved q) : q.Faithful := by
  intro place t ht
  rcases hm.before ht with hlt | ⟨processor, u, rfl, rfl⟩
  · have hholds := (h place _ (List.getElem?_eq_getElem hlt)).moved hm
    obtain ⟨hprocessor, hunit⟩ := hholds.task ht
    rw [hprocessor, hunit]
    exact hholds
  · have hholds := p.holds_submit processor u
    obtain ⟨hprocessor, hunit⟩ := hholds.task ht
    rw [hprocessor, hunit]
    exact hholds

/-! ## Coming to rest -/

/-- Nothing can happen to the pool but that it is closed. -/
def Idle (p : Pool) : Prop := ∀ e, e ≠ .closed → p.step? e = none

theorem Idle.ended (h : p.Idle) (hc : p.Conserved) (ht : p.tasks[place]? = some t) :
    ∃ o, t.stage.outcome? = some o := by
  cases hs : t.stage.outcome? with
  | some o => exact ⟨o, rfl⟩
  | none =>
    obtain ⟨e, q, he, hq⟩ := exists_step hc ht hs
    rw [h e he] at hq
    cases hq

/-- Every slot of an idle pool is free. -/
theorem Idle.free_eq (h : p.Idle) (hc : p.Conserved) : p.free = p.size := by
  have hnobody : p.running = 0 := by
    refine List.countP_eq_zero.mpr fun t ht hrunning => ?_
    obtain ⟨place, hplace⟩ := List.mem_iff_getElem?.mp ht
    obtain ⟨o, ho⟩ := h.ended hc hplace
    rw [(isRunning_iff _).mp hrunning] at ho
    cases ho
  have hslots := hc.slots
  omega

/-- What every move keeps, a run of moves keeps. -/
theorem run?_keeps {P : Pool → Prop} (step : ∀ {p q : Pool} {e : PoolEvent}, P p → p.step? e = some q → P q) :
    ∀ {es : List PoolEvent} {p q : Pool}, P p → p.run? es = some q → P q
  | [], _, _, h, hr => by
    cases hr
    exact h
  | _ :: _, _, _, h, hr => by
    obtain ⟨r, hs, hr⟩ := Option.bind_eq_some_iff.mp hr
    exact run?_keeps step (step h hs) hr

theorem effort_run : ∀ {es : List PoolEvent} {p q : Pool}, p.run? es = some q →
    p.effort + es.length ≤ q.effort ∧ q.tasks.length = p.tasks.length
  | [], _, _, h => by
    cases h
    exact ⟨Nat.le_refl _, rfl⟩
  | e :: es, p, q, h => by
    obtain ⟨r, hs, hr⟩ := Option.bind_eq_some_iff.mp h
    obtain ⟨heffort, hlength⟩ := effort_run hr
    have hmore := effort_step hs
    rw [List.length_cons]
    exact ⟨by omega, hlength.trans (length_step hs)⟩

/-- The moves of a pool that is left alone are bounded by its units. -/
theorem run?_length_le (h : p.run? es = some q) : es.length ≤ 2 * p.tasks.length + 1 := by
  obtain ⟨heffort, hlength⟩ := effort_run h
  have hle := q.effort_le
  omega

end FrameStream.Pool
