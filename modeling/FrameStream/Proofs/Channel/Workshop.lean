import FrameStream.Proofs.Channel.Succession
import FrameStream.Proofs.Pool.Draining
import FrameStream.Proofs.Service.Transcript
import FrameStream.Proofs.Service.Winding

/-!
# Channels over one pool

A server of channels leaves open what its jobs wait for between two messages. In a workshop that is said too: what a
reference gives a job when it is opened is fixed beforehand, a read submits its unit to the one pool that all jobs
share, and a job learns how its unit ended from that pool. The reads of every job and the places of its units are
recorded. Channels are also cancelled by others than their loops, as when a guard is dropped.

Every step of a workshop leaves a job where it stands or is a step of its request (`Workshop.Turn`), so that what holds
of requests over a pool holds of the jobs of channels (`Workshop.Kept`).
-/

namespace FrameStream

/-- A server of channels and the pool of its jobs. -/
structure Workshop where
  docket : Docket
  pool : Pool
  /-- What opening a reference gives a job. -/
  source : Nat → String → Except StreamError Resource
  /-- The reads of every job that are done. -/
  reads : Nat → Nat := fun _ => 0
  /-- The places of the units of every job in the pool, in order. -/
  places : Nat → List Nat := fun _ => []

/-- What happens in a workshop. -/
inductive WorkshopEvent where
  /-- A step of the server, but for the moves of its jobs. -/
  | server (e : ServerEvent)
  /-- What a job waits for has come about: its resource opened or did not, its read is done, the unit in front has
  ended, or it looks at its channel. -/
  | moved (k : Nat)
  /-- Somebody cancels a channel. -/
  | cancelled (n : ChannelNumber)
  | pool (e : PoolEvent)

def ServerEvent.isMove : ServerEvent → Bool
  | .moved _ _ => true
  | _ => false

/-- The record stays as it is when a channel is cancelled. -/
def Docket.cancel (d : Docket) (n : ChannelNumber) : Docket :=
  { d with server := { d.server with book := d.server.book.cancel n } }

namespace Workshop

/-- A workshop without connections. -/
def start (config : ServiceConfig) (registry : Registry) (depth size : Nat)
    (source : Nat → String → Except StreamError Resource) : Workshop :=
  { docket := .start config registry depth, pool := .ofSize size, source }

/-- What a job waits for in a phase, once it has come about. -/
def next? (w : Workshop) (k : Nat) : Phase → Option JobMove
  | .opening job _ => some (.opened (w.source k job.resource))
  | .refilling _ => some .looked
  | .reading _ => some (.read w.pool)
  | .awaiting _ f => (w.pool.outcome? f.place).map .ended
  | _ => none

/-- Notes a move of a job that leads to the record `docket`. -/
def moved (w : Workshop) (k : Nat) (p : Phase) (docket : Docket) : Workshop where
  docket
  pool := (p.readDone w.pool).2
  source := w.source
  reads := Function.update w.reads k (w.reads k + p.underWay)
  places := Function.update w.places k (w.places k ++
    List.range' w.pool.tasks.length ((p.readDone w.pool).2.tasks.length - w.pool.tasks.length))

/-- One step of a workshop, if it can be made. -/
def step? (w : Workshop) : WorkshopEvent → Option Workshop
  | .server e => if e.isMove then none else (w.docket.step? e).map fun docket => { w with docket }
  | .moved k =>
    match w.docket.server.jobs[k]? with
    | some j => (w.next? k j.phase).bind fun move => (w.docket.step? (.moved k move)).map (w.moved k j.phase)
    | none => none
  | .cancelled n => some { w with docket := w.docket.cancel n }
  | .pool e => (w.pool.step? e).map fun pool => { w with pool }

def run? (w : Workshop) (es : List WorkshopEvent) : Option Workshop := es.foldlM step? w

/-- A job that was started for the letter `l`, as a request over the pool; `lost` is what nobody took. -/
def course (w : Workshop) (k : Nat) (l : Letter) (j : ChannelJob) (lost : List Message) : Course where
  source := w.source k
  phase := j.phase
  delivered := w.docket.heard l
  lost
  reads := w.reads k
  places := w.places k

variable {w w' : Workshop} {e : WorkshopEvent} {es : List WorkshopEvent} {k n : Nat} {l : Letter} {j j' : ChannelJob}
  {config : ServiceConfig} {registry : Registry}

theorem run?_cons : w.run? (e :: es) = (w.step? e).bind (·.run? es) := List.foldlM_cons

/-- What every step keeps, a run keeps. -/
theorem run_keeps {P : Workshop → Prop}
    (hstep : ∀ {w w' : Workshop} {e : WorkshopEvent}, P w → w.step? e = some w' → P w') (h : P w)
    (hr : w.run? es = some w') : P w' := by
  induction es generalizing w with
  | nil =>
    cases hr
    exact h
  | cons e es ih =>
    rw [run?_cons] at hr
    obtain ⟨v, hs, hr⟩ := Option.bind_eq_some_iff.mp hr
    exact ih (hstep h hs) hr

/-! ## What a step is to the server and to the pool -/

theorem step?_server {e : ServerEvent} (hs : w.step? (.server e) = some w') :
    e.isMove = false ∧ ∃ docket, w.docket.step? e = some docket ∧ w' = { w with docket } := by
  simp only [step?, Option.ite_none_left_eq_some, Bool.not_eq_true] at hs
  obtain ⟨hmove, hs⟩ := hs
  obtain ⟨docket, hdocket, rfl⟩ := Option.map_eq_some_iff.mp hs
  exact ⟨hmove, docket, hdocket, rfl⟩

/-- A step of the server, with what there is to note. -/
theorem step?_noted {e : ServerEvent} (hs : w.step? (.server e) = some w') : ∃ s, w.docket.server.step? e = some s ∧
    w' = { w with docket := { w.docket.note s e with server := s } } := by
  obtain ⟨-, docket, hdocket, rfl⟩ := step?_server hs
  obtain ⟨s, hstep, rfl⟩ := Docket.step?_eq_some hdocket
  exact ⟨s, hstep, rfl⟩

theorem step?_moved (hs : w.step? (.moved k) = some w') : ∃ j move docket, w.docket.server.jobs[k]? = some j ∧
    w.next? k j.phase = some move ∧ w.docket.step? (.moved k move) = some docket ∧ w' = w.moved k j.phase docket := by
  simp only [step?] at hs
  split at hs
  · rename_i j hj
    obtain ⟨move, hmove, hs⟩ := Option.bind_eq_some_iff.mp hs
    obtain ⟨docket, hdocket, rfl⟩ := Option.map_eq_some_iff.mp hs
    exact ⟨j, move, docket, hj, hmove, hdocket, rfl⟩
  · cases hs

theorem step?_pool {e : PoolEvent} (hs : w.step? (.pool e) = some w') :
    ∃ pool, w.pool.step? e = some pool ∧ w' = { w with pool } := by
  obtain ⟨pool, hpool, rfl⟩ := Option.map_eq_some_iff.mp hs
  exact ⟨pool, hpool, rfl⟩

/-- A step leaves the server alone, is a step of the server, or cancels a channel. -/
theorem docket_cases (hs : w.step? e = some w') : w'.docket = w.docket ∨
    (∃ e', w.docket.step? e' = some w'.docket) ∨ ∃ n, w'.docket = w.docket.cancel n := by
  cases e with
  | server e =>
    obtain ⟨-, docket, hdocket, rfl⟩ := step?_server hs
    exact .inr (.inl ⟨e, hdocket⟩)
  | moved k =>
    obtain ⟨j, move, docket, -, -, hdocket, rfl⟩ := step?_moved hs
    exact .inr (.inl ⟨.moved k move, hdocket⟩)
  | cancelled n =>
    cases hs
    exact .inr (.inr ⟨n, rfl⟩)
  | pool e =>
    obtain ⟨pool, -, rfl⟩ := step?_pool hs
    exact .inl rfl

theorem sound_step (h : w.docket.Sound config registry) (hs : w.step? e = some w') :
    w'.docket.Sound config registry := by
  rcases docket_cases hs with hsame | ⟨e', hstep⟩ | ⟨n, hcancel⟩
  · exact hsame ▸ h
  · exact h.step hstep
  · rw [hcancel]
    exact h.quiet (ChannelServer.quiet_book (w.docket.server.book.calm_cancel n))

theorem extends_step (hs : w.step? e = some w') : w.docket.Extends w'.docket := by
  rcases docket_cases hs with hsame | ⟨e', hstep⟩ | ⟨n, hcancel⟩
  · exact hsame ▸ .refl w.docket
  · exact Docket.extends_step hstep
  · rw [hcancel]
    exact { Docket.Extends.refl w.docket with }

/-- A closed channel stays closed. -/
theorem closed_step (h : w.docket.Wired) (hs : w.step? e = some w') (hn : n < w.docket.server.connections.length)
    (hclosed : w.docket.server.book.closed n = true) : w'.docket.server.book.closed n = true := by
  rcases docket_cases hs with hsame | ⟨e', hstep⟩ | ⟨m, hcancel⟩
  · exact hsame ▸ hclosed
  · exact Docket.closed_step h hstep hn hclosed
  · rw [hcancel]
    exact (w.docket.server.book.calm_cancel m).closed n hclosed

theorem source_step (hs : w.step? e = some w') : w'.source = w.source := by
  cases e with
  | server e =>
    obtain ⟨-, docket, -, rfl⟩ := step?_server hs
    rfl
  | moved k =>
    obtain ⟨j, move, docket, -, -, -, rfl⟩ := step?_moved hs
    rfl
  | cancelled n =>
    cases hs
    rfl
  | pool e =>
    obtain ⟨pool, -, rfl⟩ := step?_pool hs
    rfl

/-- A job submits a unit to the pool, or leaves it as it is. -/
theorem readDone_submits (p : Phase) (pool : Pool) :
    (p.readDone pool).2 = pool ∨ ∃ processor u, (p.readDone pool).2 = pool.submit processor u := by
  cases p with
  | reading d =>
    obtain ⟨-, -, -, hpool⟩ :=
      Course.takeRead_spec (c := { source := fun _ => .ok { outcomes := [] }, phase := .reading d }) pool rfl
    exact hpool.imp id fun ⟨u, hsubmit⟩ => ⟨d.processor, u, hsubmit⟩
  | _ => exact .inl rfl

theorem moved_step (hs : w.step? e = some w') : w.pool.Moved w'.pool := by
  cases e with
  | server e =>
    obtain ⟨-, docket, -, rfl⟩ := step?_server hs
    exact .unchanged
  | moved k =>
    obtain ⟨j, move, docket, -, -, -, rfl⟩ := step?_moved hs
    show w.pool.Moved (j.phase.readDone w.pool).2
    rcases readDone_submits j.phase w.pool with hsame | ⟨processor, u, hsubmit⟩
    · rw [hsame]
      exact .unchanged
    · rw [hsubmit]
      exact .submitted processor u
  | cancelled n =>
    cases hs
    exact .unchanged
  | pool e =>
    obtain ⟨pool, hpool, rfl⟩ := step?_pool hs
    exact .stepped e hpool

/-! ## What a step is to one job -/

/-- The request of the job `k` makes a step, and on a closed channel it learns that nobody takes anything. -/
def Steps (w w' : Workshop) (k : Nat) (l : Letter) (j j' : ChannelJob) : Prop :=
  ∃ e : CourseEvent, (w.docket.server.book.closed l.connection = true → e.answers false true = true) ∧
    ∀ lost, ∃ lost', (w.course k l j lost).step? w.docket.server.config w.pool e =
      some (w'.course k l j' lost', w'.pool)

/-- The job `k` stands where it stood, and its client has heard as much as before. -/
structure Stays (w w' : Workshop) (k : Nat) (l : Letter) (j j' : ChannelJob) : Prop where
  phase : j'.phase = j.phase
  heard : w'.docket.heard l = w.docket.heard l
  reads : w'.reads k = w.reads k
  places : w'.places k = w.places k

/-- What a step is to the job `k`, which was started for the letter `l`. -/
structure Turn (w w' : Workshop) (k : Nat) (l : Letter) (j j' : ChannelJob) : Prop where
  kept : j.released = true → j'.released = true
  goes : w.Stays w' k l j j' ∨ w.Steps w' k l j j'

theorem turn_server {e : ServerEvent} (h : w.docket.Sound config registry) (hs : w.step? (.server e) = some w')
    (hl : w.docket.origins[k]? = some l) (hj : w.docket.server.jobs[k]? = some j) :
    ∃ j', w'.docket.server.jobs[k]? = some j' ∧ w.Turn w' k l j j' := by
  obtain ⟨hmove, docket, hdocket, rfl⟩ := step?_server hs
  obtain ⟨j', hj', hadvances⟩ := h.advances hdocket hl hj
  refine ⟨j', hj', hadvances.released, ?_⟩
  cases hadvances with
  | stays home phase ticket kept gave heard => exact .inl ⟨phase, heard, rfl, rfl⟩
  | moved move event after heard =>
    rw [event] at hmove
    cases hmove
  | waits m message before last after heard => exact .inl ⟨after ▸ rfl, heard, rfl, rfl⟩
  | said m message last opened after said =>
    refine .inr ⟨.sent true, fun hclosed => absurd hclosed (by rw [opened]; decide), fun lost => ⟨lost, ?_⟩⟩
    have hmessage : (w.course k l j lost).phase.message? = some m := message
    have hheard : docket.heard l = w.docket.heard l ++ [m] :=
      (Docket.heard_append said l).trans (if_pos rfl)
    simp only [Course.step?, hmessage, Option.map_some, Option.some.injEq, Prod.mk.injEq, and_true]
    subst after
    simp only [Course.tell, course, ChannelJob.answered, hheard, ↓reduceIte]
  | lost m message last gone after heard =>
    refine .inr ⟨.sent false, fun _ => rfl, fun lost => ⟨lost ++ [m], ?_⟩⟩
    have hmessage : (w.course k l j lost).phase.message? = some m := message
    simp only [Course.step?, hmessage, Option.map_some, Option.some.injEq, Prod.mk.injEq, and_true]
    subst after
    simp only [Course.tell, course, ChannelJob.answered, heard, Bool.false_eq_true, ↓reduceIte]

/-- The move of a job is a step of its request. -/
theorem course_moved {move : JobMove} (docket : Docket) (hmove : w.next? k j.phase = some move)
    (hheard : docket.heard l = w.docket.heard l) :
    ∃ e : CourseEvent, (w.docket.server.book.closed j.channel = true → e.answers false true = true) ∧
      ∀ lost, (w.course k l j lost).step? w.docket.server.config w.pool e =
        some ((w.moved k j.phase docket).course k l { j with phase := move.phase w.docket.server j } lost,
          (w.moved k j.phase docket).pool) := by
  cases hp : j.phase with
  | opening job processor =>
    rw [hp] at hmove
    cases hmove
    refine ⟨.opened, fun _ => rfl, fun lost => ?_⟩
    simp [Course.step?, course, moved, hp, Phase.reference?, JobMove.phase, Phase.readDone, Phase.underWay, hheard]
  | refilling d =>
    rw [hp] at hmove
    cases hmove
    refine ⟨.looked (w.docket.server.book.closed j.channel), fun hclosed => by rw [hclosed]; rfl, fun lost => ?_⟩
    simp [Course.step?, course, moved, hp, JobMove.phase, Phase.readDone, Phase.underWay, hheard]
  | reading d =>
    rw [hp] at hmove
    cases hmove
    refine ⟨.read, fun _ => rfl, fun lost => ?_⟩
    simp [Course.step?, Course.takeRead, course, moved, hp, JobMove.phase, Phase.underWay, hheard]
  | awaiting d f =>
    rw [hp] at hmove
    obtain ⟨o, ho, rfl⟩ := Option.map_eq_some_iff.mp hmove
    refine ⟨.ended, fun _ => rfl, fun lost => ?_⟩
    simp [Course.step?, course, moved, hp, ho, JobMove.phase, Phase.readDone, Phase.underWay, hheard]
  | _ => simp [next?, hp] at hmove

/-- A job that moves makes a step of its request. -/
theorem steps_moved (h : w.docket.Sound config registry) (hs : w.step? (.moved k) = some w')
    (hl : w.docket.origins[k]? = some l) (hj : w.docket.server.jobs[k]? = some j) :
    ∃ phase, w'.docket.server.jobs[k]? = some { j with phase } ∧ w.Steps w' k l j { j with phase } := by
  obtain ⟨p, move, docket, hp, hmove, hdocket, rfl⟩ := step?_moved hs
  rw [hj] at hp
  cases hp
  obtain ⟨s, hstep, rfl⟩ := Docket.step?_eq_some hdocket
  obtain ⟨p, hp, rfl⟩ := ChannelServer.step?_moved hstep
  rw [hj] at hp
  cases hp
  have hchannel := (h.answered.job k j l hj hl).channel
  obtain ⟨e, hanswers, hcourse⟩ := course_moved (l := l) { w.docket with server := {
    w.docket.server with jobs := w.docket.server.jobs.set k { j with phase := move.phase w.docket.server j } } }
    hmove rfl
  exact ⟨_, List.getElem?_set_self (List.getElem?_eq_some_iff.mp hj).1, e, hchannel ▸ hanswers,
    fun lost => ⟨lost, hcourse lost⟩⟩

theorem turn_moved {i : Nat} (h : w.docket.Sound config registry) (hs : w.step? (.moved i) = some w')
    (hl : w.docket.origins[k]? = some l) (hj : w.docket.server.jobs[k]? = some j) :
    ∃ j', w'.docket.server.jobs[k]? = some j' ∧ w.Turn w' k l j j' := by
  by_cases hik : i = k
  · subst hik
    obtain ⟨phase, hj', hsteps⟩ := steps_moved h hs hl hj
    exact ⟨_, hj', id, .inr hsteps⟩
  · obtain ⟨p, move, docket, -, -, hdocket, rfl⟩ := step?_moved hs
    obtain ⟨s, hstep, rfl⟩ := Docket.step?_eq_some hdocket
    obtain ⟨p, -, rfl⟩ := ChannelServer.step?_moved hstep
    refine ⟨j, (List.getElem?_set_ne hik).trans hj, id, .inl ⟨rfl, rfl, ?_, ?_⟩⟩
    · exact Function.update_of_ne (Ne.symm hik) _ _
    · exact Function.update_of_ne (Ne.symm hik) _ _

theorem turn (h : w.docket.Sound config registry) (hs : w.step? e = some w') (hl : w.docket.origins[k]? = some l)
    (hj : w.docket.server.jobs[k]? = some j) : ∃ j', w'.docket.server.jobs[k]? = some j' ∧ w.Turn w' k l j j' := by
  cases e with
  | server e => exact turn_server h hs hl hj
  | moved i => exact turn_moved h hs hl hj
  | cancelled n =>
    cases hs
    exact ⟨j, hj, id, .inl ⟨rfl, rfl, rfl, rfl⟩⟩
  | pool e =>
    obtain ⟨pool, -, rfl⟩ := step?_pool hs
    exact ⟨j, hj, id, .inl ⟨rfl, rfl, rfl, rfl⟩⟩

/-- A job that is not there has read nothing. -/
theorem unread_step (hs : w.step? e = some w') (hk : w.docket.server.jobs.length ≤ k) :
    w'.reads k = w.reads k ∧ w'.places k = w.places k := by
  cases e with
  | server e =>
    obtain ⟨-, docket, -, rfl⟩ := step?_server hs
    exact ⟨rfl, rfl⟩
  | moved i =>
    obtain ⟨j, move, docket, hj, -, -, rfl⟩ := step?_moved hs
    have hlt := (List.getElem?_eq_some_iff.mp hj).1
    have hne : k ≠ i := by omega
    exact ⟨Function.update_of_ne hne _ _, Function.update_of_ne hne _ _⟩
  | cancelled n =>
    cases hs
    exact ⟨rfl, rfl⟩
  | pool e =>
    obtain ⟨pool, -, rfl⟩ := step?_pool hs
    exact ⟨rfl, rfl⟩

/-- Whatever place a job gets for a unit, the unit is in the pool. -/
theorem placed_step {place : Nat} (hs : w.step? e = some w') (hmem : place ∈ w'.places k) :
    place ∈ w.places k ∨ place < w'.pool.tasks.length := by
  cases e with
  | server e =>
    obtain ⟨-, docket, -, rfl⟩ := step?_server hs
    exact .inl hmem
  | moved i =>
    obtain ⟨j, move, docket, -, -, -, rfl⟩ := step?_moved hs
    by_cases hik : k = i
    · subst hik
      simp only [moved, Function.update_self, List.mem_append, List.mem_range'_1] at hmem
      refine hmem.imp_right fun hnew => ?_
      show place < (j.phase.readDone w.pool).2.tasks.length
      omega
    · simp only [moved, Function.update_of_ne hik] at hmem
      exact .inl hmem
  | cancelled n =>
    cases hs
    exact .inl hmem
  | pool e =>
    obtain ⟨pool, -, rfl⟩ := step?_pool hs
    exact .inl hmem

/-- A job after a step was there before, or is started by the step. -/
theorem job_before (h : w.docket.Sound config registry) (hs : w.step? e = some w')
    (hl : w'.docket.origins[k]? = some l) (hj' : w'.docket.server.jobs[k]? = some j') :
    (∃ j, w.docket.origins[k]? = some l ∧ w.docket.server.jobs[k]? = some j) ∨
      ∃ e', w.docket.step? e' = some w'.docket ∧ w.docket.Starts e' k l j' := by
  rcases docket_cases hs with hsame | ⟨e', hstep⟩ | ⟨n, hcancel⟩
  · rw [hsame] at hl hj'
    exact .inl ⟨j', hl, hj'⟩
  · rcases h.job_before hstep hl hj' with ⟨j, hl, hj, -⟩ | hstarts
    · exact .inl ⟨j, hl, hj⟩
    · exact .inr ⟨e', hstep, hstarts⟩
  · rw [hcancel] at hl hj'
    exact .inl ⟨j', hl, hj'⟩

/-! ## Every workshop -/

/-- The job `k`, which was started for the letter `l`, stands where its request can stand over the pool. -/
def Stands (w : Workshop) (config : ServiceConfig) (registry : Registry) (k : Nat) (l : Letter) (j : ChannelJob) :
    Prop :=
  ∃ text r lost, w.docket.letter? l = some (.request text) ∧ Request.parse text = .ok r ∧
    Handled r config registry (w.source k) w.pool (w.course k l j lost)

/-- What holds in every workshop that began without connections. -/
structure Kept (w : Workshop) (config : ServiceConfig) (registry : Registry) : Prop where
  sound : w.docket.Sound config registry
  slots : w.pool.Conserved
  faithful : w.pool.Faithful
  stands : ∀ (k : Nat) (j : ChannelJob) (l : Letter), w.docket.server.jobs[k]? = some j →
    w.docket.origins[k]? = some l → w.Stands config registry k l j
  unread : ∀ k, w.docket.server.jobs.length ≤ k → w.reads k = 0 ∧ w.places k = []
  placed : ∀ k, ∀ place ∈ w.places k, place < w.pool.tasks.length

theorem kept_start (config : ServiceConfig) (registry : Registry) (depth size : Nat)
    (source : Nat → String → Except StreamError Resource) :
    (start config registry depth size source).Kept config registry where
  sound := Docket.sound_start config registry depth
  slots := Pool.conserved_ofSize size
  faithful := Pool.faithful_ofSize size
  stands _ _ _ hj := nomatch hj
  unread _ _ := ⟨rfl, rfl⟩
  placed _ _ hmem := nomatch hmem

theorem Turn.stands (h : w.Turn w' k l j j') (hkept : w.Kept config registry) (hs : w.step? e = some w')
    (hstands : w.Stands config registry k l j) : w'.Stands config registry k l j' := by
  obtain ⟨text, r, lost, hletter, hparse, hhandled⟩ := hstands
  have hsource := congrFun (source_step hs) k
  have hletter' := (extends_step hs).letter hletter
  rcases h.goes with hstays | ⟨e, -, hstep⟩
  · have hcourse : w'.course k l j' lost = w.course k l j lost := by
      simp only [course, hsource, hstays.phase, hstays.heard, hstays.reads, hstays.places]
    refine ⟨text, r, lost, hletter', hparse, ?_⟩
    rw [hcourse, hsource]
    exact hhandled.moved (moved_step hs)
  · obtain ⟨lost', hstep⟩ := hstep lost
    rw [hkept.sound.answered.setting.1] at hstep
    refine ⟨text, r, lost', hletter', hparse, ?_⟩
    rw [hsource]
    exact Handled.step (c := w.course k l j lost) hhandled hstep

theorem Kept.starts (h : w.Kept config registry) (hs : w.step? e = some w') {e' : ServerEvent}
    (hstep : w.docket.step? e' = some w'.docket) (hstarts : w.docket.Starts e' k l j') :
    w'.Stands config registry k l j' := by
  obtain ⟨text, r, hletter, hparse, hphase⟩ := hstarts.phase
  refine ⟨text, r, [], (extends_step hs).letter hletter, hparse, handled_start _ ?_⟩
  have hk : w.docket.server.jobs.length ≤ k := Nat.le_of_eq hstarts.place.symm
  obtain ⟨hreads, hplaces⟩ := unread_step hs hk
  obtain ⟨hzero, hnone⟩ := h.unread k hk
  have hheard : w'.docket.heard l = [] :=
    (Docket.heard_of_said (hstarts.said hstep) l).trans (h.sound.silent_of_next hstarts.letter)
  obtain ⟨hconfig, hregistry⟩ := h.sound.answered.setting
  rw [hconfig, hregistry] at hphase
  simp only [course, Course.ofRequest, hphase, hheard, hreads.trans hzero, hplaces.trans hnone]

theorem Kept.step (h : w.Kept config registry) (hs : w.step? e = some w') : w'.Kept config registry where
  sound := sound_step h.sound hs
  slots := h.slots.moved (moved_step hs)
  faithful := h.faithful.moved (moved_step hs)
  stands k j' l hj' hl := by
    rcases job_before h.sound hs hl hj' with ⟨j, hl, hj⟩ | ⟨e', hstep, hstarts⟩
    · obtain ⟨i, hi, hturn⟩ := turn h.sound hs hl hj
      rw [hj'] at hi
      cases hi
      exact hturn.stands h hs (h.stands k j l hj hl)
    · exact h.starts hs hstep hstarts
  unread k hk := by
    have hlength : w.docket.server.jobs.length ≤ w'.docket.server.jobs.length := by
      rw [← h.sound.wired.origins, ← (sound_step h.sound hs).wired.origins]
      exact (extends_step hs).origins.length_le
    obtain ⟨hreads, hplaces⟩ := unread_step hs (Nat.le_trans hlength hk)
    obtain ⟨hzero, hnone⟩ := h.unread k (Nat.le_trans hlength hk)
    exact ⟨hreads.trans hzero, hplaces.trans hnone⟩
  placed k place hmem := by
    rcases placed_step hs hmem with hold | hlt
    · exact Nat.lt_of_lt_of_le (h.placed k place hold) (moved_step hs).length_le
    · exact hlt

/-- A job has a channel. -/
theorem Kept.connected (h : w.Kept config registry) (hl : w.docket.origins[k]? = some l) :
    l.connection < w.docket.server.connections.length :=
  h.sound.wired.connected (h.sound.answered.taken_of_mem h.sound.wired (List.mem_of_getElem? hl))

theorem kept_run {source : Nat → String → Except StreamError Resource} {depth size : Nat}
    (hr : (start config registry depth size source).run? es = some w) : w.Kept config registry :=
  run_keeps (P := fun w => w.Kept config registry) Kept.step (kept_start config registry depth size source) hr

theorem source_run (hr : w.run? es = some w') : w'.source = w.source :=
  run_keeps (P := fun v => v.source = w.source) (fun h hs => (source_step hs).trans h) rfl hr

/-- The record only grows, and a channel that is closed stays so. -/
theorem closed_run (h : w.Kept config registry) (hl : w.docket.origins[k]? = some l)
    (hclosed : w.docket.server.book.closed l.connection = true) (hr : w.run? es = some w') :
    w'.Kept config registry ∧ w.docket.Extends w'.docket ∧ w'.docket.server.book.closed l.connection = true := by
  refine run_keeps (P := fun v => v.Kept config registry ∧ w.docket.Extends v.docket ∧
    v.docket.server.book.closed l.connection = true) ?_ ⟨h, .refl w.docket, hclosed⟩ hr
  rintro v v' e ⟨hv, hextends, hclosed⟩ hs
  exact ⟨hv.step hs, hextends.trans (extends_step hs),
    closed_step hv.sound.wired hs (hv.connected (hextends.origin hl)) hclosed⟩

end Workshop
end FrameStream
