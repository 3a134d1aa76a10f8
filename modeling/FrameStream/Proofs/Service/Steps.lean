import FrameStream.Proofs.Pool.Slots
import FrameStream.Service.Phase

/-!
# The steps of a service

A service handles any number of requests over one pool. `Course` is one request on its way, with a record of
what it has done: the messages its client got and those that nobody took, its reads, and the places of its
units in the pool. A step belongs to one request or to the pool, and steps come in any order.

Every step of a request is one of the functions on phases. What the step meets is part of the event: whether
a message gets through, and what the channel says of itself. `Service.run?` follows a list of events, each
of which must be allowed where it happens; the theorems say what they allow.
-/

namespace FrameStream

/-- A request on its way, and what it has done so far. -/
structure Course where
  /-- What opening a reference gives this request. -/
  source : String → Except StreamError Resource
  phase : Phase
  /-- The messages delivered, in order. -/
  delivered : List Message := []
  /-- The messages that nobody took. -/
  lost : List Message := []
  /-- The reads that are done. -/
  reads : Nat := 0
  /-- The places of its units in the pool, in order. -/
  places : List Nat := []

/-- What happens to a request. -/
inductive CourseEvent where
  /-- Its message is delivered, or nobody takes it. -/
  | sent (delivered : Bool)
  /-- Opening its resource comes to an end. -/
  | opened
  /-- Its channel says whether it is closed. -/
  | looked (closed : Bool)
  /-- Its read is done. -/
  | read
  /-- The unit it waits for has ended. -/
  | ended
  deriving DecidableEq, Repr

namespace Course

/-- A request that has not begun. -/
def ofRequest (r : Request) (config : ServiceConfig) (registry : Registry)
    (source : String → Except StreamError Resource) : Course :=
  { source, phase := Phase.start r config registry }

/-- A message was delivered, or was not. -/
def tell (c : Course) (m : Message) (delivered : Bool) : Course :=
  { c with
    phase := c.phase.answered delivered
    delivered := if delivered then c.delivered ++ [m] else c.delivered
    lost := if delivered then c.lost else c.lost ++ [m] }

/-- A read is done; if it gave a frame, the pool has a new place. -/
def takeRead (c : Course) (pool : Pool) : Course × Pool :=
  let (phase, after) := c.phase.readDone pool
  ({ c with
      phase
      reads := c.reads + 1
      places := c.places ++ List.range' pool.tasks.length (after.tasks.length - pool.tasks.length) }, after)

/-- One step of a request over a pool, if it can be made. -/
def step? (config : ServiceConfig) (pool : Pool) (c : Course) : CourseEvent → Option (Course × Pool)
  | .sent delivered => c.phase.message?.map fun m => (c.tell m delivered, pool)
  | .opened => c.phase.reference?.map fun reference =>
    ({ c with phase := c.phase.opened config (c.source reference) }, pool)
  | .looked closed =>
    match c.phase with
    | .refilling _ => some ({ c with phase := c.phase.looked closed }, pool)
    | _ => none
  | .read =>
    match c.phase with
    | .reading _ => some (c.takeRead pool)
    | _ => none
  | .ended =>
    match c.phase with
    | .awaiting _ f => (pool.outcome? f.place).map fun o => ({ c with phase := c.phase.unitEnded o }, pool)
    | _ => none

/-- The reads begun so far, the one under way included. -/
def readsBegun (c : Course) : Nat :=
  match c.phase with
  | .reading _ => c.reads + 1
  | _ => c.reads

def results (c : Course) : Nat := c.delivered.countP (·.index?.isSome)

section Steps

variable {config : ServiceConfig} {pool q : Pool} {c c' : Course} {e : CourseEvent}

/-! ## What a request can do in each phase -/

theorem step?_sending {m : Message} (hm : c.phase.message? = some m)
    (h : c.step? config pool e = some (c', q)) :
    ∃ delivered, e = .sent delivered ∧ c' = c.tell m delivered ∧ q = pool := by
  cases e with
  | sent delivered =>
    simp only [step?, hm, Option.map_some, Option.some.injEq, Prod.mk.injEq] at h
    exact ⟨delivered, rfl, h.1.symm, h.2.symm⟩
  | opened => cases hp : c.phase <;> simp_all [step?, Phase.message?, Phase.reference?]
  | looked closed => cases hp : c.phase <;> simp_all [step?, Phase.message?]
  | read => cases hp : c.phase <;> simp_all [step?, Phase.message?]
  | ended => cases hp : c.phase <;> simp_all [step?, Phase.message?]

theorem step?_opening {job : Job} {p : Processor} (hp : c.phase = .opening job p)
    (h : c.step? config pool e = some (c', q)) :
    e = .opened ∧ c' = { c with phase := (Phase.opening job p).opened config (c.source job.resource) } ∧
      q = pool := by
  cases e <;> simp [step?, hp, Phase.message?, Phase.reference?] at h
  exact ⟨rfl, h.1.symm, h.2.symm⟩

theorem step?_refilling {d : Dispatch} (hp : c.phase = .refilling d)
    (h : c.step? config pool e = some (c', q)) :
    ∃ closed, e = .looked closed ∧ c' = { c with phase := d.refill closed } ∧ q = pool := by
  cases e <;> simp [step?, hp, Phase.message?, Phase.reference?, Phase.looked] at h
  exact ⟨_, rfl, h.1.symm, h.2.symm⟩

theorem step?_reading {d : Dispatch} (hp : c.phase = .reading d)
    (h : c.step? config pool e = some (c', q)) : e = .read ∧ c.takeRead pool = (c', q) := by
  cases e <;> simp [step?, hp, Phase.message?, Phase.reference?] at h
  exact ⟨rfl, h⟩

theorem step?_awaiting {d : Dispatch} {f : Flight} (hp : c.phase = .awaiting d f)
    (h : c.step? config pool e = some (c', q)) :
    ∃ o, e = .ended ∧ pool.outcome? f.place = some o ∧
      c' = { c with phase := .sending d (d.message f.index o) } ∧ q = pool := by
  cases e <;> simp [step?, hp, Phase.message?, Phase.reference?, Phase.unitEnded] at h
  obtain ⟨o, ho, hc, hq⟩ := h
  exact ⟨o, rfl, ho, hc.symm, hq.symm⟩

theorem step?_returned {o : JobOutcome} (hp : c.phase = .returned o) : c.step? config pool e = none := by
  cases e <;> simp [step?, hp, Phase.message?, Phase.reference?]

/-- A read that gives a frame submits a unit. -/
theorem takeRead_frame {d : Dispatch} {f : Frame} (hp : c.phase = .reading d)
    (hf : d.producer.resource.peek = .frame f) :
    c.takeRead pool =
      ({ c with
          phase := .refilling { d with
            producer := { d.producer with
              resource := d.producer.resource.advance, produced := d.producer.produced + 1 }
            inFlight := d.inFlight ++ [⟨d.producer.produced, pool.tasks.length⟩] }
          reads := c.reads + 1
          places := c.places ++ [pool.tasks.length] },
        pool.submit d.processor ⟨d.producer.produced, f⟩) := by
  simp [takeRead, hp, Phase.readDone, Dispatch.absorb, Producer.take, hf, Pool.submit, List.range'_one]

theorem takeRead_ended {d : Dispatch} (hp : c.phase = .reading d)
    (hf : d.producer.resource.peek = .ended) :
    c.takeRead pool =
      ({ c with
          phase := .refilling { d with
            producer := { d.producer with resource := d.producer.resource.advance, finished := true }
            exhausted := true }
          reads := c.reads + 1 },
        pool) := by
  simp [takeRead, hp, Phase.readDone, Dispatch.absorb, Producer.take, hf]

theorem takeRead_failed {d : Dispatch} {x : StreamError} (hp : c.phase = .reading d)
    (hf : d.producer.resource.peek = .failed x) :
    c.takeRead pool =
      ({ c with
          phase := .refilling { d with
            producer := { d.producer with resource := d.producer.resource.advance, finished := true }
            exhausted := true
            readError := some x }
          reads := c.reads + 1 },
        pool) := by
  simp [takeRead, hp, Phase.readDone, Dispatch.absorb, Producer.take, hf]

/-- Whatever a read gives, the request looks again, and at most one unit is submitted. -/
theorem takeRead_spec (pool : Pool) {d : Dispatch} (hp : c.phase = .reading d) :
    ∃ d' places, (c.takeRead pool).1 = { c with phase := .refilling d', reads := c.reads + 1, places } ∧
      ((c.takeRead pool).2 = pool ∨ ∃ u, (c.takeRead pool).2 = pool.submit d.processor u) := by
  cases hf : d.producer.resource.peek with
  | frame f =>
    rw [takeRead_frame hp hf]
    exact ⟨_, _, rfl, .inr ⟨_, rfl⟩⟩
  | ended =>
    rw [takeRead_ended hp hf]
    exact ⟨_, _, rfl, .inl rfl⟩
  | failed x =>
    rw [takeRead_failed hp hf]
    exact ⟨_, _, rfl, .inl rfl⟩

theorem source_step (h : c.step? config pool e = some (c', q)) : c'.source = c.source := by
  cases e with
  | sent delivered =>
    obtain ⟨m, -, hm⟩ := Option.map_eq_some_iff.mp h
    cases hm
    rfl
  | opened =>
    obtain ⟨m, -, hm⟩ := Option.map_eq_some_iff.mp h
    cases hm
    rfl
  | looked closed =>
    cases hp : c.phase <;> simp [step?, hp] at h
    rw [← h.1]
  | read =>
    cases hp : c.phase <;> simp [step?, hp, takeRead] at h
    rw [← h.1]
  | ended =>
    cases hp : c.phase <;> simp [step?, hp] at h
    obtain ⟨o, -, hc, -⟩ := h
    rw [← hc]

/-- A request changes the pool by submitting at most one unit. -/
theorem step?_submits (h : c.step? config pool e = some (c', q)) :
    q = pool ∨ ∃ processor u, q = pool.submit processor u := by
  cases e with
  | sent delivered =>
    obtain ⟨m, -, hm⟩ := Option.map_eq_some_iff.mp h
    cases hm
    exact .inl rfl
  | opened =>
    obtain ⟨m, -, hm⟩ := Option.map_eq_some_iff.mp h
    cases hm
    exact .inl rfl
  | looked closed =>
    cases hp : c.phase <;> simp [step?, hp] at h
    exact .inl h.2.symm
  | read =>
    cases hp : c.phase <;> simp [step?, hp] at h
    obtain ⟨d', places, -, hpool⟩ := takeRead_spec pool hp
    rw [h] at hpool
    exact hpool.imp id fun ⟨u, hu⟩ => ⟨_, u, hu⟩
  | ended =>
    cases hp : c.phase <;> simp [step?, hp] at h
    obtain ⟨o, -, -, hq⟩ := h
    exact .inl hq.symm

theorem step?_moved (h : c.step? config pool e = some (c', q)) : pool.Moved q := by
  rcases step?_submits h with rfl | ⟨processor, u, rfl⟩
  · exact .unchanged
  · exact .submitted processor u

end Steps
end Course

/-! ## Services -/

/-- All requests on their way over one pool. -/
structure Service where
  config : ServiceConfig
  pool : Pool
  courses : List Course

/-- What happens in a service. -/
inductive ServiceEvent where
  | course (k : Nat) (e : CourseEvent)
  | pool (e : PoolEvent)
  deriving DecidableEq, Repr

namespace ServiceEvent

def isOf (k : Nat) : ServiceEvent → Bool
  | .course i _ => i == k
  | .pool _ => false

def isPool : ServiceEvent → Bool
  | .course _ _ => false
  | .pool _ => true

end ServiceEvent

namespace Service

/-- One step of a service, if it can be made. -/
def step? (s : Service) : ServiceEvent → Option Service
  | .course k e =>
    match s.courses[k]? with
    | some c => (c.step? s.config s.pool e).map fun (c, pool) => { s with pool, courses := s.courses.set k c }
    | none => none
  | .pool e => (s.pool.step? e).map fun pool => { s with pool }

/-- Follows a list of events, if each of them is allowed and possible where it happens. -/
def run? (allowed : Service → ServiceEvent → Bool) : Service → List ServiceEvent → Option Service
  | s, [] => some s
  | s, e :: es => if allowed s e then (s.step? e).bind fun t => run? allowed t es else none

section Runs

variable {allowed : Service → ServiceEvent → Bool} {s t : Service} {e : ServiceEvent} {k : Nat}

theorem step?_course {e : CourseEvent} (h : s.step? (.course k e) = some t) :
    ∃ c c' pool, s.courses[k]? = some c ∧ c.step? s.config s.pool e = some (c', pool) ∧
      t = { s with pool, courses := s.courses.set k c' } := by
  simp only [step?] at h
  cases hc : s.courses[k]? with
  | none => simp [hc] at h
  | some c =>
    simp only [hc] at h
    obtain ⟨⟨c', pool⟩, hs, rfl⟩ := Option.map_eq_some_iff.mp h
    exact ⟨c, c', pool, rfl, hs, rfl⟩

theorem step?_pool {e : PoolEvent} (h : s.step? (.pool e) = some t) :
    ∃ pool, s.pool.step? e = some pool ∧ t = { s with pool } := by
  obtain ⟨pool, hs, rfl⟩ := Option.map_eq_some_iff.mp h
  exact ⟨pool, hs, rfl⟩

theorem step?_of_course {c c' : Course} {e : CourseEvent} {q : Pool} (hc : s.courses[k]? = some c)
    (h : c.step? s.config s.pool e = some (c', q)) :
    s.step? (.course k e) = some { s with pool := q, courses := s.courses.set k c' } := by
  simp only [step?, hc, h, Option.map_some]

theorem step?_of_pool {e : PoolEvent} {q : Pool} (h : s.pool.step? e = some q) :
    s.step? (.pool e) = some { s with pool := q } := by
  simp only [step?, h, Option.map_some]

theorem config_step (h : s.step? e = some t) : t.config = s.config := by
  cases e with
  | course k e =>
    obtain ⟨c, c', pool, -, -, rfl⟩ := step?_course h
    rfl
  | pool e =>
    obtain ⟨pool, -, rfl⟩ := step?_pool h
    rfl

/-- A step is one of a given request, or leaves that request alone. -/
theorem step?_cases {c : Course} (hc : s.courses[k]? = some c) (h : s.step? e = some t) :
    (∃ e' c', e = .course k e' ∧ c.step? s.config s.pool e' = some (c', t.pool) ∧
      t.courses[k]? = some c') ∨
    (e.isOf k = false ∧ t.courses[k]? = some c) := by
  cases e with
  | course i e =>
    obtain ⟨ci, ci', pool, hi, hs, rfl⟩ := step?_course h
    by_cases hik : i = k
    · subst hik
      rw [hc] at hi
      cases hi
      have hlt : i < s.courses.length := (List.getElem?_eq_some_iff.mp hc).1
      exact .inl ⟨e, ci', rfl, hs, by simp [hlt]⟩
    · refine .inr ⟨by simp [ServiceEvent.isOf, hik], ?_⟩
      simp only
      rw [List.getElem?_set_ne hik]
      exact hc
  | pool e =>
    obtain ⟨pool, hs, rfl⟩ := step?_pool h
    exact .inr ⟨rfl, hc⟩

theorem step?_moved (h : s.step? e = some t) : s.pool.Moved t.pool := by
  cases e with
  | course i e =>
    obtain ⟨c, c', pool, -, hs, rfl⟩ := step?_course h
    exact Course.step?_moved hs
  | pool e =>
    obtain ⟨pool, hs, rfl⟩ := step?_pool h
    exact .stepped e hs

theorem open_of_step (h : s.step? e = some t) (he : e ≠ .pool .closed) (ho : s.pool.closed = false) :
    t.pool.closed = false := by
  cases e with
  | course i e =>
    obtain ⟨c, c', pool, -, hs, rfl⟩ := step?_course h
    rcases Course.step?_submits hs with rfl | ⟨processor, u, rfl⟩
    · exact ho
    · exact ho
  | pool e =>
    obtain ⟨pool, hs, rfl⟩ := step?_pool h
    exact Pool.open_of_step hs (fun hc => he (congrArg ServiceEvent.pool hc)) ho

theorem run?_cons {es : List ServiceEvent} (h : s.run? allowed (e :: es) = some t) :
    ∃ u, allowed s e = true ∧ s.step? e = some u ∧ u.run? allowed es = some t := by
  simp only [run?, Option.ite_none_right_eq_some, Option.bind_eq_some_iff] at h
  obtain ⟨ha, u, hs, hr⟩ := h
  exact ⟨u, ha, hs, hr⟩

theorem run?_single (ha : allowed s e = true) (hs : s.step? e = some t) : s.run? allowed [e] = some t := by
  simp only [run?, ha, hs, ↓reduceIte, Option.bind_some]

theorem run?_append : ∀ {es fs : List ServiceEvent} {s t u : Service}, s.run? allowed es = some t →
    t.run? allowed fs = some u → s.run? allowed (es ++ fs) = some u
  | [], _, _, _, _, hes, hfs => by
    cases hes
    exact hfs
  | e :: es, fs, s, t, u, hes, hfs => by
    obtain ⟨v, ha, hs, hr⟩ := run?_cons hes
    simp only [List.cons_append, run?, ha, hs, ↓reduceIte, Option.bind_some]
    exact run?_append hr hfs

theorem run?_of_pool : ∀ {es : List PoolEvent} {s : Service} {q : Pool}, s.pool.run? es = some q →
    (∀ e ∈ es, ∀ u, allowed u (.pool e) = true) → s.run? allowed (es.map .pool) = some { s with pool := q }
  | [], _, _, h, _ => by
    cases h
    rfl
  | e :: es, s, q, h, hallowed => by
    obtain ⟨p, hp, hq⟩ := Option.bind_eq_some_iff.mp h
    simp only [List.map_cons, run?, hallowed e (by simp) s, step?_of_pool hp, ↓reduceIte, Option.bind_some]
    exact run?_of_pool (s := { s with pool := p }) hq fun e' he' => hallowed e' (by simp [he'])

/-- What every allowed step keeps, a run keeps. -/
theorem run?_keeps {P : Service → Prop}
    (step : ∀ {s e t}, P s → allowed s e = true → s.step? e = some t → P t) :
    ∀ {es : List ServiceEvent} {s t : Service}, P s → s.run? allowed es = some t → P t
  | [], _, _, hp, h => by
    cases h
    exact hp
  | _ :: _, _, _, hp, h => by
    obtain ⟨u, ha, hs, hr⟩ := run?_cons h
    exact run?_keeps step (step hp ha hs) hr

theorem run?_config {es : List ServiceEvent} (h : s.run? allowed es = some t) : t.config = s.config :=
  run?_keeps (P := fun u => u.config = s.config) (fun hu _ hs => (config_step hs).trans hu) rfl h

/-- What holds of a request after `n` of its own steps, whatever others do meanwhile, holds after any run with
as many steps of that request. -/
theorem run?_counts_course {I : Nat → Pool → Course → Prop} {config : ServiceConfig}
    (own : ∀ {n u e c c' q}, I n u.pool c → allowed u (.course k e) = true → u.courses[k]? = some c →
      c.step? config u.pool e = some (c', q) → I (n + 1) q c')
    (others : ∀ {n u e v c}, I n u.pool c → allowed u e = true → u.step? e = some v → I n v.pool c) :
    ∀ {es : List ServiceEvent} {s t : Service} {c d : Course} {n : Nat}, s.config = config →
      s.courses[k]? = some c → I n s.pool c → s.run? allowed es = some t → t.courses[k]? = some d →
      I (n + es.countP (·.isOf k)) t.pool d
  | [], _, _, c, d, _, _, hc, hi, h, hd => by
    cases h
    rw [hc] at hd
    cases hd
    exact hi
  | e :: es, s, t, c, d, n, hconfig, hc, hi, h, hd => by
    obtain ⟨u, ha, hs, hr⟩ := run?_cons h
    have hu : u.config = config := (config_step hs).trans hconfig
    rcases step?_cases hc hs with ⟨e', c', rfl, hstep, hc'⟩ | ⟨hother, hc'⟩
    · rw [hconfig] at hstep
      have hrest := run?_counts_course (I := I) (n := n + 1) own others hu hc' (own hi ha hc hstep) hr hd
      rw [List.countP_cons_of_pos (by simp [ServiceEvent.isOf]), Nat.add_comm (es.countP _), ← Nat.add_assoc]
      exact hrest
    · have hrest := run?_counts_course (I := I) (n := n) own others hu hc' (others hi ha hs) hr hd
      rw [List.countP_cons_of_neg (by simp [hother])]
      exact hrest

/-- What the steps of a request keep and no change of the pool harms, holds of that request after any run. -/
theorem run?_keeps_course {I : Pool → Course → Prop} {c d : Course} {es : List ServiceEvent}
    (own : ∀ {u e c c' q}, I u.pool c → allowed u (.course k e) = true →
      c.step? s.config u.pool e = some (c', q) → I q c')
    (others : ∀ {p c q}, I p c → p.Moved q → I q c)
    (hc : s.courses[k]? = some c) (hi : I s.pool c) (h : s.run? allowed es = some t)
    (hd : t.courses[k]? = some d) : I t.pool d :=
  run?_counts_course (I := fun _ => I) (n := 0) (fun hi ha _ hs => own hi ha hs)
    (fun hi _ hs => others hi (step?_moved hs)) rfl hc hi h hd

end Runs
end Service
end FrameStream
