import FrameStream.Proofs.Service.Coupling

/-!
# Progress

A request that has not returned can make a step of its own, unless it waits for a unit that has not ended; and
then the pool can move, whoever holds its slots. Every step of a request raises its rank and every move of the
pool its effort. So the steps of a request are bounded by its messages, and those of the pool by its units.
Nothing is assumed of the order of steps.
-/

namespace FrameStream

/-- The event is what a channel allows that takes the next message or does not, and says of itself that it is
closed or is not. -/
def CourseEvent.answers (takes closed : Bool) : CourseEvent → Bool
  | .sent delivered => delivered == takes
  | .looked said => said == closed
  | _ => true

/-- The event brings request `k` on, with its channel as given: a step of that request, or a move of the pool
other than closing it. -/
def ServiceEvent.serves (k : Nat) (takes closed : Bool) : ServiceEvent → Bool
  | .course i e => i == k && e.answers takes closed
  | .pool e => e != .closed

/-- The steps of a dispatch since its last read or message. -/
def Phase.offset : Phase → Nat
  | .reading _ | .awaiting _ _ | .failing _ _ => 1
  | .sending _ _ => 2
  | .returned _ => 3
  | _ => 0

theorem Phase.outcome?_eq_some {p : Phase} {o : JobOutcome} : p.outcome? = some o ↔ p = .returned o := by
  cases p <;> simp [Phase.outcome?]

namespace Course

/-- A number that every step of a dispatch raises. -/
def rank (c : Course) : Nat := 2 * c.reads + 3 * c.results + c.phase.offset

/-- A request that has not returned can make a step, unless it waits for a unit. -/
theorem exists_step (c : Course) (config : ServiceConfig) (pool : Pool) (takes closed : Bool)
    (hgoing : c.phase.outcome? = none) :
    (∃ e, e.answers takes closed = true ∧ (c.step? config pool e).isSome = true) ∨
      ∃ d f, c.phase = .awaiting d f ∧ pool.outcome? f.place = none := by
  cases hp : c.phase with
  | awaiting d f =>
    cases ho : pool.outcome? f.place with
    | none => exact .inr ⟨d, f, rfl, ho⟩
    | some o => exact .inl ⟨.ended, rfl, by simp [step?, hp, ho]⟩
  | opening job p => exact .inl ⟨.opened, rfl, by simp [step?, hp, Phase.reference?]⟩
  | refilling d => exact .inl ⟨.looked closed, by simp [CourseEvent.answers], by simp [step?, hp]⟩
  | reading d => exact .inl ⟨.read, rfl, by simp [step?, hp]⟩
  | returned o => simp [hp, Phase.outcome?] at hgoing
  | _ => exact .inl ⟨.sent takes, by simp [CourseEvent.answers], by simp [step?, hp, Phase.message?]⟩

end Course

namespace Service

variable {allowed : Service → ServiceEvent → Bool} {s t : Service} {e : ServiceEvent} {k : Nat}

/-- A request that has not returned can be brought on, if its units are known to the pool. -/
theorem exists_step {c : Course} (hc : s.courses[k]? = some c) (hslots : s.pool.Conserved)
    (hplaces : ∀ d f, c.phase = .awaiting d f → f.place < s.pool.tasks.length)
    (hgoing : c.phase.outcome? = none) (takes closed : Bool) :
    ∃ e u, e.serves k takes closed = true ∧ s.step? e = some u := by
  rcases c.exists_step s.config s.pool takes closed hgoing with ⟨e, ha, hs⟩ | ⟨d, f, hp, ho⟩
  · obtain ⟨⟨c', q⟩, hs⟩ := Option.isSome_iff_exists.mp hs
    exact ⟨.course k e, _, by simp [ServiceEvent.serves, ha], step?_of_course hc hs⟩
  · have hlt := hplaces d f hp
    have hnone : s.pool.tasks[f.place].stage.outcome? = none := by
      simpa [Pool.outcome?, hlt] using ho
    obtain ⟨e, q, he, hq⟩ := Pool.exists_step hslots (List.getElem?_eq_getElem hlt) hnone
    exact ⟨.pool e, _, by simpa [ServiceEvent.serves] using he, step?_of_pool hq⟩

/-- A request that has not returned makes its next step after some moves of the pool. -/
theorem exists_own_step {c : Course} (hslots : s.pool.Conserved)
    (hplaces : ∀ d f, c.phase = .awaiting d f → f.place < s.pool.tasks.length)
    (hgoing : c.phase.outcome? = none) (takes closed : Bool) :
    ∃ es q e, s.pool.run? es = some q ∧ (∀ e ∈ es, e ≠ .closed) ∧ e.answers takes closed = true ∧
      (c.step? s.config q e).isSome = true := by
  rcases c.exists_step s.config s.pool takes closed hgoing with ⟨e, ha, hs⟩ | ⟨d, f, hp, -⟩
  · exact ⟨[], s.pool, e, rfl, by simp, ha, hs⟩
  · obtain ⟨es, q, o, hrun, hes, ho⟩ := Pool.exists_outcome hslots (hplaces d f hp)
    exact ⟨es, q, .ended, hrun, hes, rfl, by simp [Course.step?, hp, ho]⟩

theorem run?_conserved {es : List ServiceEvent} (hslots : s.pool.Conserved) (h : s.run? allowed es = some t) :
    t.pool.Conserved :=
  run?_keeps (P := fun u => u.pool.Conserved) (fun hu _ hs => hu.moved (step?_moved hs)) hslots h

theorem run?_open {es : List ServiceEvent} (hlaw : ∀ u, allowed u (.pool .closed) = false)
    (hopen : s.pool.closed = false) (h : s.run? allowed es = some t) : t.pool.closed = false := by
  refine run?_keeps (P := fun u => u.pool.closed = false) ?_ hopen h
  rintro u e v hu ha hs
  refine open_of_step hs ?_ hu
  rintro rfl
  rw [hlaw u] at ha
  cases ha

theorem run?_effort : ∀ {es : List ServiceEvent} {s t : Service}, s.run? allowed es = some t →
    s.pool.effort + es.countP (·.isPool) ≤ t.pool.effort
  | [], _, _, h => by
    cases h
    exact Nat.le_refl _
  | e :: es, s, t, h => by
    obtain ⟨u, -, hs, hr⟩ := run?_cons h
    have ih := run?_effort hr
    cases e with
    | course i e =>
      obtain ⟨c, c', q, -, hc, rfl⟩ := step?_course hs
      have hsame : q.effort = s.pool.effort := by
        rcases Course.step?_submits hc with rfl | ⟨processor, w, rfl⟩
        · rfl
        · exact Pool.effort_submit s.pool processor w
      rw [List.countP_cons_of_neg (by simp [ServiceEvent.isPool])]
      simp only [hsame] at ih
      exact ih
    | pool e =>
      obtain ⟨q, hq, rfl⟩ := step?_pool hs
      have hlt := Pool.effort_step hq
      rw [List.countP_cons_of_pos (by simp [ServiceEvent.isPool])]
      simp only at ih
      omega

end Service

namespace Plan

variable {p : Plan} {lead : List Message} {pool q : Pool} {c c' : Course}

theorem Along.place_lt (h : p.Along lead pool c) {d : Dispatch} {f : Flight} (hphase : c.phase = .awaiting d f) :
    f.place < pool.tasks.length := by
  cases h with
  | awaiting d' f' sent phase tracks delivered lost index place full =>
    rw [hphase] at phase
    cases phase
    obtain ⟨s, hs, -⟩ := tracks.held _ _ place
    exact (List.getElem?_eq_some_iff.mp hs).1
  | _ => simp_all [Dispatch.ending]

theorem front_offset (d : Dispatch) : 0 < d.front.offset := by
  unfold Dispatch.front
  split
  · simp [Phase.offset]
  · split <;> simp [Phase.offset, Dispatch.ending]

theorem refill_offset (d : Dispatch) (closed : Bool) : 0 < (d.refill closed).offset := by
  unfold Dispatch.refill
  split
  · split
    · simp [Phase.offset, Dispatch.ending]
    · split
      · exact front_offset _
      · simp [Phase.offset]
  · exact front_offset d

/-- Every step of a dispatch raises its rank. -/
theorem Along.rank_lt (h : p.Along lead pool c) {config : ServiceConfig} {e : CourseEvent}
    (hs : c.step? config pool e = some (c', q)) : c.rank < c'.rank := by
  cases h with
  | refilling d sent phase tracks delivered lost =>
    obtain ⟨closed, -, rfl, rfl⟩ := Course.step?_refilling phase hs
    have hpos := refill_offset d closed
    have hzero : c.phase.offset = 0 := by rw [phase]; rfl
    change c.rank < 2 * c.reads + 3 * c.results + (d.refill closed).offset
    unfold Course.rank
    omega
  | reading d sent phase tracks delivered lost going below space =>
    obtain ⟨-, hread⟩ := Course.step?_reading phase hs
    obtain ⟨d', places, hnext, -⟩ := Course.takeRead_spec pool phase
    rw [hread] at hnext
    change c' = _ at hnext
    subst hnext
    have hone : c.phase.offset = 1 := by rw [phase]; rfl
    change c.rank < 2 * (c.reads + 1) + 3 * c.results + 0
    unfold Course.rank
    omega
  | awaiting d f sent phase tracks delivered lost index place full =>
    obtain ⟨o, -, -, rfl, rfl⟩ := Course.step?_awaiting phase hs
    simp only [Course.rank, Course.results, phase, Phase.offset]
    omega
  | sending d m sent phase tracks delivered lost said full =>
    obtain ⟨got, -, rfl, rfl⟩ := Course.step?_sending (m := m) (by simp [phase, Phase.message?]) hs
    cases got with
    | true =>
      have hone : (c.tell m true).results = c.results + 1 := by
        simp [Course.results, Course.tell, said.index]
      simp only [Course.rank, hone, phase, Phase.offset]
      simp only [Course.tell, phase, Phase.answered]
      omega
    | false =>
      simp only [Course.rank, Course.results, Course.tell, phase, Phase.answered, Phase.offset, Dispatch.ending,
        Bool.false_eq_true, ↓reduceIte]
      omega
  | failing d e sent phase tracks delivered lost all exhausted error =>
    obtain ⟨got, -, rfl, rfl⟩ :=
      Course.step?_sending (m := .error d.job.key e.message) (by simp [phase, Phase.message?]) hs
    have hsame : (c.tell (.error d.job.key e.message) got).results = c.results := by
      cases got <;> simp [Course.results, Course.tell, Message.index?]
    simp only [Course.rank, hsame, phase, Phase.offset]
    cases got <;> simp [Course.tell, phase, Phase.answered, Dispatch.ending]
  | completed d sent phase => rw [Course.step?_returned phase] at hs; cases hs
  | failed d e sent phase => rw [Course.step?_returned phase] at hs; cases hs
  | closed d hand sent phase => rw [Course.step?_returned phase] at hs; cases hs

theorem Along.rank_le (h : p.Along lead pool c) (hlead : lead.countP (·.index?.isSome) = 0) :
    c.rank ≤ 5 * c.results + 2 * p.room + 3 := by
  have hcounts := (h.counts hlead).1
  have hreads : c.reads ≤ c.readsBegun := by
    cases hp : c.phase <;> simp [Course.readsBegun, hp]
  have hoffset : c.phase.offset ≤ 3 := by
    cases hp : c.phase <;> simp [Phase.offset]
  unfold Course.rank
  omega

end Plan
end FrameStream
