import FrameStream.Proofs.Service.Transcript

/-!
# Runs end, and only a channel keeps a request from returning

Requests share one pool. A channel answers a message or leaves it pending; nothing else keeps a request or the pool
from its next step (`Unhindered`). The pool may be closed at any moment or never, and it may give its slots in the
order of submission.

If every resource comes to an end, no run is longer than a bound that the requests alone determine, and a run that
cannot go on has brought every request to its end, but for those whose own message is pending (`no_deadlock`). Slots
are held by running units only, so a request whose message is pending holds none that others wait for.
-/

namespace FrameStream

/-- The steps that a request has made at most when it stands in a phase outside of its dispatch. -/
def Phase.prelude? : Phase → Option Nat
  | .rejecting _ _ => some 0
  | .acknowledging _ _ => some 0
  | .opening _ _ => some 1
  | .reporting _ _ => some 2
  | .returned _ => some 3
  | _ => none

namespace Course

/-- A request that has not begun. -/
def Begins (config : ServiceConfig) (registry : Registry) (c : Course) : Prop :=
  ∃ r, c = ofRequest r config registry c.source

/-- Every resource that opens gives finitely many frames before its end or an error. -/
def Finite (c : Course) : Prop := ∀ reference resource, c.source reference = .ok resource → resource.frames ≠ ⊤

end Course

namespace Service

/-- Nothing but a pending message is in the way of a request or of the pool. Slots are given, and units turned
away, in the order of submission at least. -/
structure Unhindered (allowed : Service → ServiceEvent → Bool) : Prop where
  opened : ∀ s k, allowed s (.course k .opened) = true
  looked : ∀ s k, ∃ closed, allowed s (.course k (.looked closed)) = true
  read : ∀ s k, allowed s (.course k .read) = true
  ended : ∀ s k, allowed s (.course k .ended) = true
  started : ∀ s place, s.pool.firstWaiting? = some place → allowed s (.pool (.started place)) = true
  finished : ∀ s place, allowed s (.pool (.finished place)) = true
  refused : ∀ s place, s.pool.firstWaiting? = some place → allowed s (.pool (.refused place)) = true

/-- The channel of request `k` does not answer its message. -/
def Pending (allowed : Service → ServiceEvent → Bool) (s : Service) (k : Nat) : Prop :=
  ∀ delivered, allowed s (.course k (.sent delivered)) = false

/-- Nothing can happen any more, but that the pool is closed. -/
def Stuck (allowed : Service → ServiceEvent → Bool) (s : Service) : Prop :=
  ∀ e, e ≠ .pool .closed → allowed s e = true → s.step? e = none

end Service

/-! ## A bound on the steps of one request -/

section Paced

variable {r : Request} {config : ServiceConfig} {registry : Registry}
  {source : String → Except StreamError Resource} {n : Nat} {pool q : Pool} {c c' : Course}

/-- A request that has made `n` steps stands far enough on its way. -/
inductive Paced (r : Request) (config : ServiceConfig) (registry : Registry)
    (source : String → Except StreamError Resource) (n : Nat) (pool : Pool) (c : Course) : Prop where
  | outside (handled : Handled r config registry source pool c) (p : Nat) (phase : c.phase.prelude? = some p)
    (le : n ≤ p)
  | dispatched (job : Job) (processor : Processor) (resource : Resource)
    (accepted : r.accept config.defaultModel registry = .ok (job, processor))
    (opened : source job.resource = .ok resource)
    (along : (Plan.ofJob config job processor resource).Along [.accepted job.key] pool c)
    (le : n ≤ c.rank + 2)

theorem Paced.handled (h : Paced r config registry source n pool c) : Handled r config registry source pool c := by
  cases h with
  | outside handled => exact handled
  | dispatched job processor resource accepted opened along =>
    exact .dispatched job processor resource accepted opened along

theorem Paced.moved (h : Paced r config registry source n pool c) (hm : pool.Moved q) :
    Paced r config registry source n q c := by
  cases h with
  | outside handled p phase le => exact .outside (handled.moved hm) p phase le
  | dispatched job processor resource accepted opened along le =>
    exact .dispatched job processor resource accepted opened (along.moved hm) le

theorem paced_start (pool : Pool) (hc : c = Course.ofRequest r config registry source) :
    Paced r config registry source 0 pool c := by
  have handled := handled_start (c := c) pool hc
  subst hc
  cases ha : r.accept config.defaultModel registry with
  | error refusal =>
    exact .outside handled 0 (by simp [Course.ofRequest, Phase.start, ha, Phase.prelude?]) (Nat.le_refl 0)
  | ok admitted =>
    exact .outside handled 0 (by simp [Course.ofRequest, Phase.start, ha, Phase.prelude?]) (Nat.le_refl 0)

/-- Every step brings a request further on its way. -/
theorem Paced.step (h : Paced r config registry c.source n pool c) {e : CourseEvent}
    (hs : c.step? config pool e = some (c', q)) : Paced r config registry c.source (n + 1) q c' := by
  cases h with
  | dispatched job processor resource accepted opened along le =>
    have hlt := along.rank_lt hs
    exact .dispatched job processor resource accepted opened (along.step hs) (by omega)
  | outside handled p phase le =>
    have handled' := handled.step hs
    cases hp : c.phase with
    | rejecting key e =>
      obtain ⟨got, -, rfl, rfl⟩ := Course.step?_sending (by rw [hp]; rfl) hs
      rw [hp] at phase
      cases phase
      exact .outside handled' 3 (by simp [Course.tell, hp, Phase.answered, Phase.prelude?]) (by omega)
    | acknowledging job processor =>
      obtain ⟨got, -, rfl, rfl⟩ := Course.step?_sending (by rw [hp]; rfl) hs
      rw [hp] at phase
      cases phase
      cases got with
      | true => exact .outside handled' 1 (by simp [Course.tell, hp, Phase.answered, Phase.prelude?]) (by omega)
      | false => exact .outside handled' 3 (by simp [Course.tell, hp, Phase.answered, Phase.prelude?]) (by omega)
    | opening job processor =>
      rw [hp] at phase
      cases phase
      obtain ⟨-, rfl, rfl⟩ := Course.step?_opening hp hs
      cases handled with
      | opening job' processor' accepted phase' delivered lost reads places =>
        rw [hp] at phase'
        cases phase'
        cases hopen : c.source job.resource with
        | error x =>
          rw [hopen] at handled'
          exact .outside handled' 2 rfl (by omega)
        | ok resource =>
          refine .dispatched job processor resource accepted hopen ?_ (by omega)
          exact Plan.along_start _ _ (Plan.opened_ok job processor config resource) reads places delivered lost
      | dispatched job' processor' resource accepted opened along =>
        cases along <;> simp_all [Dispatch.ending]
      | _ => simp_all
    | reporting job e =>
      obtain ⟨got, -, rfl, rfl⟩ := Course.step?_sending (by rw [hp]; rfl) hs
      rw [hp] at phase
      cases phase
      cases got with
      | true => exact .outside handled' 3 (by simp [Course.tell, hp, Phase.answered, Phase.prelude?]) (by omega)
      | false => exact .outside handled' 3 (by simp [Course.tell, hp, Phase.answered, Phase.prelude?]) (by omega)
    | returned o =>
      rw [Course.step?_returned hp] at hs
      cases hs
    | _ => simp [hp, Phase.prelude?] at phase

/-- The steps of a request are bounded by its plan, or are three at most if it has none. -/
theorem exists_bound (r : Request) (config : ServiceConfig) (registry : Registry)
    (source : String → Except StreamError Resource)
    (hfinite : ∀ reference resource, source reference = .ok resource → resource.frames ≠ ⊤) :
    ∃ bound, ∀ n pool c, Paced r config registry source n pool c → n ≤ bound := by
  have outside : ∀ {n p : Nat} {c : Course}, c.phase.prelude? = some p → n ≤ p → n ≤ 3 := by
    intro n p c hp hle
    have hp3 : p ≤ 3 := by
      cases hphase : c.phase <;> simp_all [Phase.prelude?] <;> omega
    omega
  by_cases hplan : ∃ job processor resource,
      r.accept config.defaultModel registry = .ok (job, processor) ∧ source job.resource = .ok resource
  · obtain ⟨job, processor, resource, accepted, opened⟩ := hplan
    let plan := Plan.ofJob config job processor resource
    obtain ⟨units, hunits⟩ : ∃ units : ℕ, (units : ℕ∞) = plan.units :=
      ENat.ne_top_iff_exists.mp (ne_top_of_le_ne_top (hfinite _ _ opened) plan.units_le_frames)
    refine ⟨5 * units + 2 * plan.room + 5, fun n pool c h => ?_⟩
    cases h with
    | outside handled p phase le =>
      have hle := outside phase le
      omega
    | dispatched job' processor' resource' accepted' opened' along le =>
      rw [accepted] at accepted'
      cases accepted'
      rw [opened] at opened'
      cases opened'
      have hrank := along.rank_le rfl
      have hresults := along.results_le rfl
      rw [← hunits, Nat.cast_le] at hresults
      have hroom : (Plan.ofJob config job processor resource).room = plan.room := rfl
      omega
  · refine ⟨3, fun n pool c h => ?_⟩
    cases h with
    | outside handled p phase le => exact outside phase le
    | dispatched job processor resource accepted opened =>
      exact absurd ⟨job, processor, resource, accepted, opened⟩ hplan

end Paced

/-! ## A bound on all steps of a service -/

namespace ServiceEvent

/-- The event belongs to one of the first `m` requests. -/
def isBelow (m : Nat) : ServiceEvent → Bool
  | .course i _ => decide (i < m)
  | .pool _ => false

theorem isBelow_zero (e : ServiceEvent) : e.isBelow 0 = false := by
  cases e <;> simp [isBelow]

theorem countP_isBelow_succ (m : Nat) (es : List ServiceEvent) :
    es.countP (·.isBelow (m + 1)) = es.countP (·.isBelow m) + es.countP (·.isOf m) := by
  induction es with
  | nil => rfl
  | cons e es ih =>
    have hone : (e.isBelow (m + 1)).toNat = (e.isBelow m).toNat + (e.isOf m).toNat := by
      cases e with
      | pool e => rfl
      | course i e =>
        rcases Nat.lt_trichotomy i m with hlt | rfl | hgt
        · simp [isBelow, isOf, hlt, Nat.ne_of_lt hlt, Nat.lt_succ_of_lt hlt]
        · simp [isBelow, isOf]
        · have hne : (i == m) = false := beq_false_of_ne (Nat.ne_of_gt hgt)
          simp [isBelow, isOf, hne, Nat.not_lt_of_gt hgt, Nat.not_lt.mpr (Nat.succ_le_of_lt hgt)]
    simp only [List.countP_cons, ih]
    cases h₁ : e.isBelow (m + 1) <;> cases h₂ : e.isBelow m <;> cases h₃ : e.isOf m <;> simp_all <;> omega

end ServiceEvent

namespace Service

variable {allowed : Service → ServiceEvent → Bool} {s t : Service} {es : List ServiceEvent} {k : Nat}

theorem length_courses_step {e : ServiceEvent} (h : s.step? e = some t) : t.courses.length = s.courses.length := by
  cases e with
  | course k e =>
    obtain ⟨c, c', q, -, -, rfl⟩ := step?_course h
    exact List.length_set
  | pool e =>
    obtain ⟨q, -, rfl⟩ := step?_pool h
    rfl

theorem length_courses_run (h : s.run? allowed es = some t) : t.courses.length = s.courses.length :=
  run?_keeps (P := fun u => u.courses.length = s.courses.length)
    (fun hu _ hs => (length_courses_step hs).trans hu) rfl h

/-- A unit is submitted by a step of a request. -/
theorem run?_tasks : ∀ {es : List ServiceEvent} {s t : Service}, s.run? allowed es = some t →
    t.pool.tasks.length ≤ s.pool.tasks.length + es.countP (!·.isPool)
  | [], _, _, h => by
    cases h
    exact Nat.le_refl _
  | e :: es, s, t, h => by
    obtain ⟨u, -, hs, hr⟩ := run?_cons h
    have ih := run?_tasks hr
    cases e with
    | course i e =>
      obtain ⟨c, c', q, -, hc, rfl⟩ := step?_course hs
      have hone : q.tasks.length ≤ s.pool.tasks.length + 1 := by
        rcases Course.step?_submits hc with rfl | ⟨processor, u, rfl⟩
        · omega
        · simp [Pool.submit]
      rw [List.countP_cons_of_pos (by simp [ServiceEvent.isPool])]
      simp only at ih
      omega
    | pool e =>
      obtain ⟨q, hq, rfl⟩ := step?_pool hs
      have hsame := Pool.length_step hq
      rw [List.countP_cons_of_neg (by simp [ServiceEvent.isPool])]
      simp only at ih
      omega

/-- Every step that is not one of the pool is one of a request that there is. -/
theorem run?_course_lt : ∀ {es : List ServiceEvent} {s t : Service}, s.run? allowed es = some t →
    ∀ i e, .course i e ∈ es → i < s.courses.length
  | [], _, _, _, _, _, hmem => nomatch hmem
  | e' :: es, s, t, h, i, e, hmem => by
    obtain ⟨u, -, hs, hr⟩ := run?_cons h
    rcases List.mem_cons.mp hmem with rfl | hrest
    · obtain ⟨c, -, -, hc, -⟩ := step?_course hs
      exact (List.getElem?_eq_some_iff.mp hc).1
    · rw [← length_courses_step hs]
      exact run?_course_lt hr i e hrest

/-- The steps of all requests are bounded if those of each request are. -/
theorem run?_steps_le {bound : Nat} (h : s.run? allowed es = some t)
    (hbound : ∀ k < s.courses.length, es.countP (·.isOf k) ≤ bound) :
    es.countP (!·.isPool) ≤ s.courses.length * bound := by
  have below : ∀ m ≤ s.courses.length, es.countP (·.isBelow m) ≤ m * bound := by
    intro m
    induction m with
    | zero =>
      intro _
      simp [ServiceEvent.isBelow_zero]
    | succ m ih =>
      intro hm
      have hrest := ih (Nat.le_of_succ_le hm)
      have hown := hbound m hm
      rw [ServiceEvent.countP_isBelow_succ, Nat.succ_mul]
      omega
  have hsame : es.countP (!·.isPool) = es.countP (·.isBelow s.courses.length) := by
    refine List.countP_congr fun e he => ?_
    cases e with
    | course i e => simp [ServiceEvent.isPool, ServiceEvent.isBelow, run?_course_lt h i e he]
    | pool e => simp [ServiceEvent.isPool, ServiceEvent.isBelow]
  rw [hsame]
  exact below _ (Nat.le_refl _)

/-- With the steps of all requests a whole run is bounded. -/
theorem run?_length_le {steps : Nat} (h : s.run? allowed es = some t) (hsteps : es.countP (!·.isPool) ≤ steps) :
    es.length ≤ 2 * s.pool.tasks.length + 3 * steps + 1 := by
  have hsplit := List.length_eq_countP_add_countP (·.isPool) (l := es)
  have heffort := run?_effort h
  have hle := t.pool.effort_le
  have htasks := run?_tasks h
  have hnot : es.countP (fun e => ¬e.isPool = true) = es.countP (!·.isPool) := by simp
  omega

/-! ## Runs that cannot go on -/

/-- A pool in which a unit has not ended can move, and serve those first that were submitted first. -/
theorem exists_pool_step (hfree : Unhindered allowed) (hslots : s.pool.Conserved) {place : Nat} {task : Task}
    (ht : s.pool.tasks[place]? = some task) (hn : task.stage.outcome? = none) :
    ∃ e q, e ≠ .closed ∧ allowed s (.pool e) = true ∧ s.pool.step? e = some q := by
  cases hs : task.stage with
  | running =>
    exact ⟨.finished place, _, by simp, hfree.finished s place, Pool.finish?_eq_some.mpr ⟨task, ht, hs, rfl⟩⟩
  | ended o => simp [hs, Stage.outcome?] at hn
  | waiting =>
    obtain ⟨first, hfirst⟩ := Pool.exists_firstWaiting? (List.mem_of_getElem? ht) hs
    obtain ⟨other, hother, hwaiting⟩ := Pool.firstWaiting?_waiting hfirst
    cases hclosed : s.pool.closed with
    | true =>
      exact ⟨.refused first, _, by simp, hfree.refused s first hfirst,
        Pool.refuseAt?_eq_some.mpr ⟨other, hother, hwaiting, hclosed, rfl⟩⟩
    | false =>
      by_cases hslot : 0 < s.pool.free
      · exact ⟨.started first, _, by simp, hfree.started s first hfirst,
          Pool.startAt?_eq_some.mpr ⟨other, hother, hwaiting, hclosed, hslot, rfl⟩⟩
      · -- No slot is free, so some unit holds one.
        have hrunning : 0 < s.pool.running := by
          have hsum := hslots.slots
          have hpos := hslots.positive
          omega
        obtain ⟨holder, hmem, hholds⟩ := List.countP_pos_iff.mp hrunning
        obtain ⟨i, hi⟩ := List.mem_iff_getElem?.mp hmem
        exact ⟨.finished i, _, by simp, hfree.finished s i,
          Pool.finish?_eq_some.mpr ⟨holder, hi, (Pool.isRunning_iff _).mp hholds, rfl⟩⟩

/-- A request in a service that is stuck has returned, or its message is pending. -/
theorem Stuck.returned_or_pending (hstuck : s.Stuck allowed) (hfree : Unhindered allowed)
    (hslots : s.pool.Conserved) {c : Course} (hc : s.courses[k]? = some c)
    (hplaces : ∀ d f, c.phase = .awaiting d f → f.place < s.pool.tasks.length) :
    (∃ o, c.phase = .returned o) ∨ ((∃ m, c.phase.message? = some m) ∧ s.Pending allowed k) := by
  have blocked : ∀ e, allowed s (.course k e) = true → c.step? s.config s.pool e = none := by
    intro e ha
    cases hs : c.step? s.config s.pool e with
    | none => rfl
    | some next =>
      have hnone := hstuck (.course k e) (by simp) ha
      rw [step?_of_course hc hs] at hnone
      cases hnone
  cases hm : c.phase.message? with
  | some m =>
    refine .inr ⟨⟨m, rfl⟩, fun delivered => ?_⟩
    by_contra hne
    have hnone := blocked (.sent delivered) (by simpa using hne)
    simp [Course.step?, hm] at hnone
  | none =>
    cases hp : c.phase with
    | returned o => exact .inl ⟨o, rfl⟩
    | opening job p =>
      have hnone := blocked .opened (hfree.opened s k)
      simp [Course.step?, hp, Phase.reference?] at hnone
    | refilling d =>
      obtain ⟨closed, ha⟩ := hfree.looked s k
      have hnone := blocked (.looked closed) ha
      simp [Course.step?, hp] at hnone
    | reading d =>
      have hnone := blocked .read (hfree.read s k)
      simp [Course.step?, hp] at hnone
    | awaiting d f =>
      have hnone := blocked .ended (hfree.ended s k)
      simp only [Course.step?, hp, Option.map_eq_none_iff] at hnone
      -- The unit in front has not ended, so the pool can move.
      have hlt := hplaces d f hp
      obtain ⟨e, q, hne, ha, hq⟩ := exists_pool_step hfree hslots (List.getElem?_eq_getElem hlt)
        (by simpa [Pool.outcome?, hlt] using hnone)
      have hidle := hstuck (.pool e) (by simpa using hne) ha
      rw [step?_of_pool hq] at hidle
      cases hidle
    | _ => simp [hp, Phase.message?] at hm

/-- Requests that have returned or whose message is pending, over a pool in which all units have ended. -/
theorem stuck_of_ended (htasks : ∀ task ∈ s.pool.tasks, task.stage.outcome? ≠ none)
    (hcourses : ∀ k c, s.courses[k]? = some c →
      (∃ o, c.phase = .returned o) ∨ ((∃ m, c.phase.message? = some m) ∧ s.Pending allowed k)) :
    s.Stuck allowed := by
  intro e hne ha
  cases e with
  | pool e =>
    cases hq : s.pool.step? e with
    | none => simp [step?, hq]
    | some q =>
      have hended : ∀ {place : Nat} {task : Task}, s.pool.tasks[place]? = some task → task.stage.outcome? ≠ none :=
        fun ht => htasks _ (List.mem_of_getElem? ht)
      cases e with
      | closed => exact absurd rfl hne
      | started place =>
        obtain ⟨task, ht, hwaiting, -⟩ := Pool.startAt?_eq_some.mp hq
        exact absurd (by simp [hwaiting, Stage.outcome?]) (hended ht)
      | refused place =>
        obtain ⟨task, ht, hwaiting, -⟩ := Pool.refuseAt?_eq_some.mp hq
        exact absurd (by simp [hwaiting, Stage.outcome?]) (hended ht)
      | finished place =>
        obtain ⟨task, ht, hrunning, -⟩ := Pool.finish?_eq_some.mp hq
        exact absurd (by simp [hrunning, Stage.outcome?]) (hended ht)
  | course k e =>
    cases hc : s.courses[k]? with
    | none => simp [step?, hc]
    | some c =>
      cases hs : c.step? s.config s.pool e with
      | none => simp [step?, hc, hs]
      | some next =>
        obtain ⟨c', q⟩ := next
        rcases hcourses k c hc with ⟨o, ho⟩ | ⟨⟨m, hm⟩, hpending⟩
        · rw [Course.step?_returned ho] at hs
          cases hs
        · -- All that this request can do is to send, and that is not allowed.
          obtain ⟨got, rfl, -, -⟩ := Course.step?_sending hm hs
          rw [hpending got] at ha
          cases ha

/-- A run that cannot be longer than a bound goes on until it is stuck. -/
theorem exists_stuck {bound : Nat} {start : Service}
    (hbound : ∀ es t, start.run? allowed es = some t → es.length ≤ bound) (h : start.run? allowed es = some s) :
    ∃ fs t, s.run? allowed fs = some t ∧ t.Stuck allowed := by
  induction hn : bound - es.length using Nat.strongRecOn generalizing es s with
  | ind n ih =>
    by_cases hstuck : s.Stuck allowed
    · exact ⟨[], s, rfl, hstuck⟩
    · obtain ⟨e, -, ha, hs⟩ : ∃ e, e ≠ .pool .closed ∧ allowed s e = true ∧ s.step? e ≠ none := by
        simpa [Stuck] using hstuck
      obtain ⟨u, hu⟩ := Option.ne_none_iff_exists'.mp hs
      have hlonger := run?_append h (run?_single ha hu)
      have hle := hbound _ _ hlonger
      rw [List.length_append, List.length_singleton] at hle
      obtain ⟨fs, t, hrun, ht⟩ := ih (bound - (es ++ [e]).length)
        (by rw [List.length_append, List.length_singleton]; omega) hlonger rfl
      exact ⟨[e] ++ fs, t, run?_append (run?_single ha hu) hrun, ht⟩

/-- After any run a request stands at the end of as many steps as it made. -/
theorem paced_of_run {config : ServiceConfig} {registry : Registry} {r : Request} {courses : List Course}
    {size : Nat} {c d : Course} (hc : courses[k]? = some c) (hbegin : c = .ofRequest r config registry c.source)
    (hrun : (⟨config, .ofSize size, courses⟩ : Service).run? allowed es = some t) (hd : t.courses[k]? = some d) :
    Paced r config registry c.source (es.countP (·.isOf k)) t.pool d := by
  have hpaced := run?_counts_course (n := 0)
    (I := fun n pool d => d.source = c.source ∧ Paced r config registry c.source n pool d)
    (fun ⟨hsource, h⟩ _ _ hs => ⟨(Course.source_step hs).trans hsource, by rw [← hsource] at h ⊢; exact h.step hs⟩)
    (fun ⟨hsource, h⟩ _ hs => ⟨hsource, h.moved (step?_moved hs)⟩)
    rfl hc ⟨rfl, paced_start (.ofSize size) hbegin⟩ hrun hd
  rw [Nat.zero_add] at hpaced
  exact hpaced.2

/-- All requests together make at most so many steps. -/
theorem exists_steps_bound {config : ServiceConfig} {registry : Registry} {courses : List Course}
    (hbegin : ∀ c ∈ courses, c.Begins config registry) (hfinite : ∀ c ∈ courses, c.Finite) (size : Nat) :
    ∃ bound, ∀ es t, (⟨config, .ofSize size, courses⟩ : Service).run? allowed es = some t →
      es.length ≤ bound := by
  have hown : ∀ k, ∃ bound, ∀ es t, (⟨config, .ofSize size, courses⟩ : Service).run? allowed es = some t →
      k < courses.length → es.countP (·.isOf k) ≤ bound := by
    intro k
    by_cases hk : k < courses.length
    · obtain ⟨r, hr⟩ := hbegin _ (List.getElem_mem hk)
      obtain ⟨bound, hbound⟩ := exists_bound r config registry _ (hfinite _ (List.getElem_mem hk))
      refine ⟨bound, fun es t hrun _ => ?_⟩
      have hlt : k < t.courses.length := (length_courses_run hrun).symm ▸ hk
      exact hbound _ _ _ (paced_of_run (List.getElem?_eq_getElem hk) hr hrun (List.getElem?_eq_getElem hlt))
    · exact ⟨0, fun _ _ _ h => absurd h hk⟩
  choose bound hbound using hown
  let most := (Finset.range courses.length).sup bound
  refine ⟨3 * (courses.length * most) + 1, fun es t hrun => ?_⟩
  have hsteps : es.countP (!·.isPool) ≤ courses.length * most := run?_steps_le hrun fun k hk =>
    (hbound k es t hrun hk).trans (Finset.le_sup (f := bound) (Finset.mem_range.mpr hk))
  simpa [Pool.ofSize] using run?_length_le hrun hsteps

end Service

/-- No run goes on for ever, and only the client of a request keeps it from returning. Every run is bounded, and
can be brought to where nothing can happen any more; there every request has returned, but for those whose own
message is pending. -/
theorem no_deadlock {config : ServiceConfig} {registry : Registry} {courses : List Course}
    {allowed : Service → ServiceEvent → Bool} (hbegin : ∀ c ∈ courses, c.Begins config registry)
    (hfinite : ∀ c ∈ courses, c.Finite) (hfree : Service.Unhindered allowed) (size : Nat) :
    (∃ bound, ∀ es t, (⟨config, .ofSize size, courses⟩ : Service).run? allowed es = some t →
      es.length ≤ bound) ∧
    ∀ es t, (⟨config, .ofSize size, courses⟩ : Service).run? allowed es = some t →
      (∃ fs u, t.run? allowed fs = some u ∧ u.Stuck allowed) ∧
      (t.Stuck allowed → ∀ k < courses.length, ∃ c, t.courses[k]? = some c ∧
        ((∃ o, c.phase = .returned o) ∨ ((∃ m, c.phase.message? = some m) ∧ t.Pending allowed k))) := by
  obtain ⟨bound, hbound⟩ : ∃ bound, ∀ es t, (⟨config, .ofSize size, courses⟩ : Service).run? allowed es = some t →
      es.length ≤ bound := Service.exists_steps_bound hbegin hfinite size
  refine ⟨⟨bound, hbound⟩, fun es t hrun => ⟨Service.exists_stuck hbound hrun, fun hstuck k hk => ?_⟩⟩
  obtain ⟨r, hr⟩ := hbegin _ (List.getElem_mem hk)
  have hlt : k < t.courses.length := (Service.length_courses_run hrun).symm ▸ hk
  have hc := List.getElem?_eq_getElem hlt
  have hslots : t.pool.Conserved := Service.run?_conserved (Pool.conserved_ofSize size) hrun
  have hhandled := (Service.paced_of_run (List.getElem?_eq_getElem hk) hr hrun hc).handled
  exact ⟨_, hc, hstuck.returned_or_pending hfree hslots hc fun d f hp => hhandled.place_lt hp⟩

/-- The first client takes the acknowledgment and then nothing more, without closing; the second takes everything.
Slots are given in the order of submission. -/
def heldLaw (s : Service) : ServiceEvent → Bool
  | .course 0 (.sent _) => s.courses[0]?.all (·.delivered.isEmpty)
  | .pool (.started place) => s.pool.firstWaiting? = some place
  | .pool (.refused place) => s.pool.firstWaiting? = some place
  | _ => true

theorem unhindered_heldLaw : Service.Unhindered heldLaw where
  opened _ k := by cases k <;> rfl
  looked _ k := ⟨false, by cases k <;> rfl⟩
  read _ k := by cases k <;> rfl
  ended _ k := by cases k <;> rfl
  started _ _ h := by simp [heldLaw, h]
  finished _ _ := rfl
  refused _ _ h := by simp [heldLaw, h]

/-- Two requests for a resource of one frame each. -/
def heldCourses : List Course :=
  [.ofRequest { key := some "a", resource := some "v" } { window := 0, defaultModel := "echo" } Registry.builtins
      fun _ => .ok { outcomes := [.frame default] },
    .ofRequest { key := some "b", resource := some "w" } { window := 0, defaultModel := "echo" } Registry.builtins
      fun _ => .ok { outcomes := [.frame default] }]

/-- The first request gets the slot before the second and then waits for its client. -/
def heldEvents : List ServiceEvent :=
  [.course 0 (.sent true), .course 0 .opened, .course 0 (.looked false), .course 0 .read, .course 0 (.looked false),
    .course 1 (.sent true), .course 1 .opened, .course 1 (.looked false), .course 1 .read,
    .course 1 (.looked false), .pool (.started 0), .pool (.finished 0), .course 0 .ended, .pool (.started 1),
    .pool (.finished 1), .course 1 .ended, .course 1 (.sent true), .course 1 (.looked false), .course 1 .read,
    .course 1 (.looked false)]

/-- The first request waits for its client for ever, and the second returns all the same. -/
theorem no_deadlock_held :
    ∃ t c, (⟨{ window := 0, defaultModel := "echo" }, .ofSize 0, heldCourses⟩ : Service).run? heldLaw heldEvents =
        some t ∧ t.Stuck heldLaw ∧ t.Pending heldLaw 0 ∧ t.courses[1]? = some c ∧
      c.phase = .returned (.finished .completed 1) := by
  have hbegin : ∀ c ∈ heldCourses, c.Begins { window := 0, defaultModel := "echo" } Registry.builtins := by
    intro c hc
    simp only [heldCourses, List.mem_cons, List.not_mem_nil, or_false] at hc
    rcases hc with rfl | rfl
    · exact ⟨_, rfl⟩
    · exact ⟨_, rfl⟩
  have hfinite : ∀ c ∈ heldCourses, c.Finite := by
    intro c hc reference resource hopen
    simp only [heldCourses, List.mem_cons, List.not_mem_nil, or_false] at hc
    have hframes : resource.frames = (1 : Nat) := by
      have hresource : resource = { outcomes := [.frame default] } := by
        rcases hc with rfl | rfl
        · exact (Except.ok.inj hopen).symm
        · exact (Except.ok.inj hopen).symm
      subst hresource
      exact Resource.frames_eq ((Resource.natCast_le_frames_iff _ 1).mpr (by decide)) (by decide)
    rw [hframes]
    exact ENat.natCast_ne_top 1
  obtain ⟨t, c₀, c, hrun, hcourses, htasks, hm, hphase⟩ : ∃ t c₀ c,
      (⟨{ window := 0, defaultModel := "echo" }, .ofSize 0, heldCourses⟩ : Service).run? heldLaw heldEvents =
        some t ∧ t.courses = [c₀, c] ∧ t.pool.tasks.all (·.stage.outcome?.isSome) = true ∧
      (c₀.phase.message?.isSome && !c₀.delivered.isEmpty) = true ∧
      c.phase = .returned (.finished .completed 1) := ⟨_, _, _, rfl, rfl, rfl, rfl, rfl⟩
  obtain ⟨hm, hdelivered⟩ : (∃ m, c₀.phase.message? = some m) ∧ c₀.delivered.isEmpty = false := by
    simpa [Option.isSome_iff_exists] using hm
  have hstuck : t.Stuck heldLaw := by
    refine Service.stuck_of_ended (fun task ht => ?_) fun k d hd => ?_
    · have hended := List.all_eq_true.mp htasks task ht
      exact Option.isSome_iff_ne_none.mp hended
    · rw [hcourses] at hd
      match k, hd with
      | 0, hd =>
        cases hd
        exact .inr ⟨hm, fun got => by simp [heldLaw, hcourses, hdelivered]⟩
      | 1, hd =>
        cases hd
        exact .inl ⟨_, hphase⟩
  obtain ⟨d, hd, hleft⟩ := ((no_deadlock hbegin hfinite unhindered_heldLaw 0).2 heldEvents t hrun).2 hstuck 0
    (by decide)
  have hpending : t.Pending heldLaw 0 := by
    rw [hcourses] at hd
    cases hd
    rcases hleft with ⟨o, ho⟩ | ⟨-, hpending⟩
    · obtain ⟨m, hm⟩ := hm
      simp [ho, Phase.message?] at hm
    · exact hpending
  exact ⟨t, c, hrun, hstuck, hpending, by rw [hcourses]; rfl, hphase⟩

end FrameStream
