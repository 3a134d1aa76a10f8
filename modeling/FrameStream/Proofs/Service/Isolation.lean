import FrameStream.Proofs.Service.Solo

/-!
# Requests do not interfere

Any number of requests share a pool that stays open. Each has a resource of its own, and a channel that
answers by what it was given. Then no request sees the others: what its client has got is a beginning of what
it gets when the request runs alone, and when it has returned both agree in full, outcome included
(`requests_isolated`). That some requests end early and leave their units in the pool makes no difference.
-/

namespace FrameStream

/-- A request with its own resources and its own channel. -/
structure Errand where
  request : Request
  /-- What opening a reference gives. -/
  source : String → Except StreamError Resource
  peer : Peer

def Errand.course (errand : Errand) (config : ServiceConfig) (registry : Registry) : Course :=
  Course.ofRequest errand.request config registry errand.source

/-- A service with these requests over one pool, before anything happens. -/
def Service.ofErrands (config : ServiceConfig) (registry : Registry) (size : Nat) (errands : List Errand) :
    Service where
  config := config
  pool := .ofSize size
  courses := errands.map (·.course config registry)

/-- Channels answer by what they were given, and the pool is not closed. -/
def lawOf (errands : List Errand) (s : Service) : ServiceEvent → Bool
  | .course k e =>
    match errands[k]?, s.courses[k]? with
    | some errand, some c => e.answers (errand.peer.takes c.delivered) (errand.peer.saysClosed c.delivered)
    | _, _ => false
  | .pool e => e != .closed

section

variable {config : ServiceConfig} {registry : Registry} {size k : Nat} {errands : List Errand} {errand : Errand}
  {es : List ServiceEvent} {t : Service} {c : Course}

theorem getElem?_ofErrands (he : errands[k]? = some errand) :
    (Service.ofErrands config registry size errands).courses[k]? = some (errand.course config registry) := by
  simp [Service.ofErrands, he]

theorem lawOf_course (he : errands[k]? = some errand) (hc : t.courses[k]? = some c) (e : CourseEvent) :
    lawOf errands t (.course k e) =
      e.answers (errand.peer.takes c.delivered) (errand.peer.saysClosed c.delivered) := by
  simp only [lawOf, he, hc]

theorem lawOf_pool {e : PoolEvent} (he : e ≠ .closed) (s : Service) : lawOf errands s (.pool e) = true := by
  simpa [lawOf] using he

theorem ne_closed_of_law {s : Service} {e : ServiceEvent} (h : lawOf errands s e = true) : e ≠ .pool .closed := by
  rintro rfl
  cases h

/-- Where a request stands after `n` steps of its own over an open pool: where it stands by itself. -/
structure Errand.StandsAt (errand : Errand) (config : ServiceConfig) (registry : Registry) (n : Nat) (pool : Pool)
    (c : Course) : Prop where
  isOpen : pool.closed = false
  source : c.source = errand.source
  handled : Handled errand.request config registry errand.source pool c
  bare : c.bare = (Course.next config errand.peer)^[n] (errand.course config registry).bare

variable {n : Nat} {s : Service} {pool : Pool}

theorem Errand.StandsAt.next {c' : Course} {q : Pool} {e : CourseEvent}
    (h : errand.StandsAt config registry n pool c)
    (ha : e.answers (errand.peer.takes c.delivered) (errand.peer.saysClosed c.delivered) = true)
    (hs : c.step? config pool e = some (c', q)) : c'.bare = c.bare.next config errand.peer := by
  have handled := h.handled
  rw [← h.source] at handled
  exact handled.bare_step h.isOpen ha hs

theorem Errand.StandsAt.step {c' : Course} {q : Pool} {e : CourseEvent}
    (h : errand.StandsAt config registry n s.pool c) (he : errands[k]? = some errand)
    (ha : lawOf errands s (.course k e) = true) (hc : s.courses[k]? = some c)
    (hs : c.step? config s.pool e = some (c', q)) : errand.StandsAt config registry (n + 1) q c' := by
  rw [lawOf_course he hc] at ha
  have handled := h.handled
  rw [← h.source] at handled
  refine ⟨?_, (Course.source_step hs).trans h.source, ?_, ?_⟩
  · rcases Course.step?_submits hs with rfl | ⟨processor, u, rfl⟩
    · exact h.isOpen
    · exact h.isOpen
  · rw [← h.source]
    exact handled.step hs
  · rw [h.next ha hs, h.bare, Function.iterate_succ_apply']

theorem Errand.StandsAt.others {e : ServiceEvent} (h : errand.StandsAt config registry n s.pool c)
    (ha : lawOf errands s e = true) (hs : s.step? e = some t) : errand.StandsAt config registry n t.pool c :=
  ⟨Service.open_of_step hs (ne_closed_of_law ha) h.isOpen, h.source, h.handled.moved (Service.step?_moved hs), h.bare⟩

/-- In any run a request stands where it stands by itself after as many steps of its own. -/
theorem standsAt_of_run (he : errands[k]? = some errand)
    (hrun : (Service.ofErrands config registry size errands).run? (lawOf errands) es = some t)
    (hc : t.courses[k]? = some c) : errand.StandsAt config registry (es.countP (·.isOf k)) t.pool c := by
  have hstands := Service.run?_counts_course (n := 0) (I := errand.StandsAt config registry)
    (fun h ha hc hs => h.step he ha hc hs) (fun h ha hs => h.others ha hs) rfl (getElem?_ofErrands he)
    ⟨rfl, rfl, handled_start _ rfl, rfl⟩ hrun hc
  rw [Nat.zero_add] at hstands
  exact hstands

section Comparison

variable {m : Nat} {pool' : Pool} {c' : Course}

theorem Errand.StandsAt.delivered_prefix (h : errand.StandsAt config registry n pool c)
    (h' : errand.StandsAt config registry m pool' c') (hle : n ≤ m) : c.delivered <+: c'.delivered := by
  rw [← c.bare_delivered, ← c'.bare_delivered, h.bare, h'.bare]
  exact Course.delivered_iterate hle _

theorem Errand.StandsAt.bare_eq (h : errand.StandsAt config registry n pool c)
    (h' : errand.StandsAt config registry m pool' c') (hle : n ≤ m) {o : JobOutcome}
    (ho : c.phase = .returned o) : c'.bare = c.bare := by
  rw [h'.bare, h.bare]
  refine Course.iterate_returned (o := o) hle ?_
  rw [← h.bare, Course.bare, ho]
  rfl

theorem Course.eq_of_bare_eq (h : c'.bare = c.bare) :
    c.delivered = c'.delivered ∧ c.phase.outcome? = c'.phase.outcome? := by
  rw [← c.bare_delivered, ← c'.bare_delivered, ← c.bare_outcome?, ← c'.bare_outcome?, h]
  exact ⟨rfl, rfl⟩

/-- A request that has returned has delivered all that it ever delivers. -/
theorem Errand.StandsAt.of_returned (h : errand.StandsAt config registry n pool c)
    (h' : errand.StandsAt config registry m pool' c') {o' : JobOutcome} (ho' : c'.phase = .returned o') :
    c.delivered <+: c'.delivered ∧ ∀ o, c.phase = .returned o → c.delivered = c'.delivered ∧ o = o' := by
  rcases Nat.le_total n m with hle | hle
  · refine ⟨h.delivered_prefix h' hle, fun o ho => ?_⟩
    obtain ⟨hdelivered, houtcome⟩ := Course.eq_of_bare_eq (h.bare_eq h' hle ho)
    rw [ho, ho'] at houtcome
    exact ⟨hdelivered, Option.some.inj houtcome⟩
  · obtain ⟨hdelivered, houtcome⟩ := Course.eq_of_bare_eq (h'.bare_eq h hle ho')
    refine ⟨by rw [hdelivered], fun o ho => ?_⟩
    rw [ho, ho'] at houtcome
    exact ⟨hdelivered.symm, (Option.some.inj houtcome).symm⟩

end Comparison

/-- Over an open pool a request gets to any state it has by itself, whoever else there is. -/
theorem exists_reaching (config : ServiceConfig) (registry : Registry) (size : Nat) (he : errands[k]? = some errand)
    (n : Nat) :
    ∃ es t c, (Service.ofErrands config registry size errands).run? (lawOf errands) es = some t ∧
      t.courses[k]? = some c ∧
      c.bare = (Course.next config errand.peer)^[n] (errand.course config registry).bare := by
  induction n with
  | zero => exact ⟨[], _, _, rfl, getElem?_ofErrands he, rfl⟩
  | succ n ih =>
    obtain ⟨es, t, c, hrun, hc, hbare⟩ := ih
    rw [Function.iterate_succ_apply', ← hbare]
    cases hp : c.phase.outcome? with
    | some o =>
      have hreturned : c.bare.phase = .returned o := by
        rw [Course.bare, Phase.outcome?_eq_some.mp hp]
        rfl
      exact ⟨es, t, c, hrun, hc, (Course.next_returned hreturned).symm⟩
    | none =>
      have hslots : t.pool.Conserved := Service.run?_conserved (Pool.conserved_ofSize size) hrun
      have hhandled := (standsAt_of_run he hrun hc).handled
      obtain ⟨fs, q, e, hmoves, hfs, ha, hs⟩ := Service.exists_own_step hslots
        (fun d f hphase => hhandled.place_lt hphase) hp (errand.peer.takes c.delivered)
        (errand.peer.saysClosed c.delivered)
      obtain ⟨⟨c', q'⟩, hs⟩ := Option.isSome_iff_exists.mp hs
      -- The pool moves until the request can; then the request makes its step.
      have hwait := Service.run?_append hrun
        (Service.run?_of_pool hmoves fun e he u => lawOf_pool (hfs e he) u)
      have hstands := standsAt_of_run he hwait hc
      have hlaw : lawOf errands { t with pool := q } (.course k e) = true :=
        (lawOf_course he (t := { t with pool := q }) hc e).trans ha
      have hlast := Service.run?_append hwait
        (Service.run?_single hlaw (Service.step?_of_course (s := { t with pool := q }) hc hs))
      rw [Service.run?_config hrun] at hs
      have hlt : k < t.courses.length := (List.getElem?_eq_some_iff.mp hc).1
      exact ⟨_, _, c', hlast, List.getElem?_set_self hlt, hstands.next ha hs⟩

/-- Alone, a request gets to any state it has by itself. -/
theorem exists_alone (config : ServiceConfig) (registry : Registry) (size : Nat) (errand : Errand) (n : Nat) :
    ∃ es t c, (Service.ofErrands config registry size [errand]).run? (lawOf [errand]) es = some t ∧
      t.courses[0]? = some c ∧
      c.bare = (Course.next config errand.peer)^[n] (errand.course config registry).bare :=
  exists_reaching (k := 0) config registry size rfl n

/-- The request can get to this state in a service of its own, with a pool of this size. -/
def Errand.ReachesAlone (errand : Errand) (config : ServiceConfig) (registry : Registry) (size : Nat) (c : Course) :
    Prop :=
  ∃ es t, (Service.ofErrands config registry size [errand]).run? (lawOf [errand]) es = some t ∧
    t.courses[0]? = some c

/-- Requests that share a pool do not interfere. Whatever the others do, a request gets where it also gets
alone, with the same messages delivered and the same outcome, if any. Messages delivered are a beginning of all
that the request delivers alone, and they are all of it, with the same outcome, once it has returned. Until
then it can be brought on. -/
theorem requests_isolated (he : errands[k]? = some errand)
    (hrun : (Service.ofErrands config registry size errands).run? (lawOf errands) es = some t)
    (hc : t.courses[k]? = some c) :
    (∀ size', ∃ c', errand.ReachesAlone config registry size' c' ∧ c'.delivered = c.delivered ∧
      c'.phase.outcome? = c.phase.outcome?) ∧
    (∀ size' c', errand.ReachesAlone config registry size' c' →
      (c.delivered <+: c'.delivered ∨ c'.delivered <+: c.delivered) ∧
      ∀ o', c'.phase = .returned o' → c.delivered <+: c'.delivered ∧
        ∀ o, c.phase = .returned o → c.delivered = c'.delivered ∧ o = o') ∧
    (c.phase.outcome? = none → ∃ e u, (e.isOf k = true ∨ e.isPool = true) ∧ lawOf errands t e = true ∧
      t.step? e = some u) := by
  have hstands := standsAt_of_run he hrun hc
  refine ⟨?_, ?_, ?_⟩
  · intro size'
    obtain ⟨es', t', c', hrun', hc', hbare⟩ := exists_alone config registry size' errand (es.countP (·.isOf k))
    rw [← hstands.bare] at hbare
    obtain ⟨hdelivered, houtcome⟩ := Course.eq_of_bare_eq hbare.symm
    exact ⟨c', ⟨es', t', hrun', hc'⟩, hdelivered, houtcome⟩
  · rintro size' c' ⟨es', t', hrun', hc'⟩
    have halone := standsAt_of_run (k := 0) rfl hrun' hc'
    refine ⟨?_, fun o' ho' => hstands.of_returned halone ho'⟩
    rcases Nat.le_total (es.countP (·.isOf k)) (es'.countP (·.isOf 0)) with hle | hle
    · exact .inl (hstands.delivered_prefix halone hle)
    · exact .inr (halone.delivered_prefix hstands hle)
  · intro hgoing
    have hslots : t.pool.Conserved := Service.run?_conserved (Pool.conserved_ofSize size) hrun
    obtain ⟨e, u, hserves, hstep⟩ := Service.exists_step hc hslots
      (fun d f hphase => hstands.handled.place_lt hphase) hgoing (errand.peer.takes c.delivered)
      (errand.peer.saysClosed c.delivered)
    cases e with
    | course i e =>
      obtain ⟨hi, ha⟩ : i = k ∧ e.answers _ _ = true := by simpa [ServiceEvent.serves] using hserves
      subst hi
      exact ⟨_, u, .inl (by simp [ServiceEvent.isOf]), (lawOf_course he hc e).trans ha, hstep⟩
    | pool e =>
      exact ⟨_, u, .inr rfl, lawOf_pool (by simpa [ServiceEvent.serves] using hserves) t, hstep⟩

end

/-- A client that leaves after the acknowledgment. -/
def leaving : Errand where
  request := { key := some "a", resource := some "v" }
  source _ := .ok { outcomes := [.frame default, .frame default] }
  peer := .ofCapacity (some 1) false

/-- A client that stays. -/
def staying : Errand where
  request := { key := some "b", resource := some "w" }
  source _ := .ok { outcomes := [.frame default] }
  peer := .ofCapacity none true

/-- The unit of the first request holds the one slot, while the second waits for it. -/
def sharingEvents : List ServiceEvent :=
  [.course 0 (.sent true), .course 0 .opened, .course 0 (.looked false), .course 0 .read, .pool (.started 0),
    .course 1 (.sent true), .course 1 .opened, .course 1 (.looked false), .course 1 .read,
    .course 1 (.looked false), .course 0 (.looked false), .pool (.finished 0), .course 0 .ended,
    .course 0 (.sent false), .pool (.started 1), .pool (.finished 1), .course 1 .ended, .course 1 (.sent true),
    .course 1 (.looked false), .course 1 .read, .course 1 (.looked false)]

/-- The request of the client that stays ends as it ends alone. -/
theorem requests_isolated_staying :
    ∃ t c c', (Service.ofErrands { window := 1, defaultModel := "echo" } Registry.builtins 1
        [leaving, staying]).run? (lawOf [leaving, staying]) sharingEvents = some t ∧
      t.courses[1]? = some c ∧ c.phase = .returned (.finished .completed 1) ∧
      staying.ReachesAlone { window := 1, defaultModel := "echo" } Registry.builtins 3 c' ∧
      c'.delivered = c.delivered ∧ c'.phase.outcome? = some (.finished .completed 1) := by
  obtain ⟨t, c, hrun, hc, hphase⟩ : ∃ t c, (Service.ofErrands { window := 1, defaultModel := "echo" }
      Registry.builtins 1 [leaving, staying]).run? (lawOf [leaving, staying]) sharingEvents = some t ∧
        t.courses[1]? = some c ∧ c.phase = .returned (.finished .completed 1) := ⟨_, _, rfl, rfl, rfl⟩
  obtain ⟨c', halone, hdelivered, houtcome⟩ := (requests_isolated rfl hrun hc).1 3
  exact ⟨t, c, c', hrun, hc, hphase, halone, hdelivered, by rw [houtcome, hphase]; rfl⟩

end FrameStream
