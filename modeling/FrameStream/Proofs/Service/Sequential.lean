import FrameStream.Proofs.Service.Progress

/-!
# One unit at a time

The sequential program takes a unit, processes it and tells its message before it takes the next. Over an
open pool a dispatch tells the same, whatever its window, the size of the pool, the order in which units end
and whatever other requests do: at every moment what the program has told after some number of units, and
with the outcome of the program unless the channel closes (`refines_sequential`).
-/

namespace FrameStream

/-- Takes units one after another, `fuel` at most; each is processed and told before the next is taken. The
messages come with the outcome, if the end was reached. -/
def Producer.inOrder (key : String) (processor : Processor) : Nat → Producer → List Message × Option JobOutcome
  | 0, _ => ([], none)
  | fuel + 1, producer =>
    match producer.next with
    | (.unit u, rest) =>
      let (later, outcome) := inOrder key processor fuel rest
      ((processor.process u).message key u.index :: later, outcome)
    | (.ended, rest) => ([], some (.finished .completed rest.produced))
    | (.failed e, rest) => ([.error key e.message], some (.finished .resourceFailed rest.produced))

/-- No step of a request on a channel that stays open ends it as closed. -/
theorem Course.not_closed_step {config : ServiceConfig} {pool q : Pool} {c c' : Course} {e : CourseEvent}
    (hs : c.step? config pool e = some (c', q)) (ha : e.answers true false = true) (n : Nat) :
    c'.phase ≠ .returned (.finished .channelClosed n) := by
  have hfront : ∀ d : Dispatch, d.front ≠ .returned (.finished .channelClosed n) := by
    intro d
    unfold Dispatch.front
    split
    · simp
    · split <;> simp [Dispatch.ending]
  cases e with
  | sent delivered =>
    obtain ⟨m, hmessage, hm⟩ := Option.map_eq_some_iff.mp hs
    cases hm
    have hgot : delivered = true := by simpa [CourseEvent.answers] using ha
    subst hgot
    cases hp : c.phase <;>
      simp_all [Course.tell, Phase.answered, Phase.message?, Dispatch.ending]
  | opened =>
    obtain ⟨reference, hreference, hm⟩ := Option.map_eq_some_iff.mp hs
    cases hm
    cases hp : c.phase <;> simp [hp, Phase.reference?] at hreference
    cases ho : c.source reference <;> simp [Phase.opened]
  | looked said =>
    cases hp : c.phase <;> simp [Course.step?, hp] at hs
    rename_i d
    have hsaid : said = false := by simpa [CourseEvent.answers] using ha
    subst hsaid
    rw [← hs.1]
    simp only [Phase.looked, Dispatch.refill, Bool.false_eq_true, ↓reduceIte]
    split
    · split
      · exact hfront _
      · simp
    · exact hfront d
  | read =>
    cases hp : c.phase <;> simp [Course.step?, hp] at hs
    obtain ⟨d', places, hnext, -⟩ := Course.takeRead_spec pool hp
    rw [hs] at hnext
    change c' = _ at hnext
    rw [hnext]
    simp
  | ended =>
    cases hp : c.phase <;> simp [Course.step?, hp] at hs
    obtain ⟨o, -, hc, -⟩ := hs
    rw [← hc]
    simp [Phase.unitEnded]

namespace Plan

variable {p : Plan}

def producerAt (p : Plan) (n : Nat) : Producer :=
  { resource := p.resource.after n, limit := p.limit, produced := n }

/-- The sequential program of a plan. -/
def sequential (p : Plan) (fuel : Nat) : List Message × Option JobOutcome :=
  p.start.producer.inOrder p.job.key p.processor fuel

/-- How the sequential program ends, and what it has told by then. -/
inductive Finale (p : Plan) : JobOutcome → List Message → Prop where
  /-- All units are told, up to the requested count or the end of the resource. -/
  | completed (n : Nat) (all : p.units = n)
    (ended : p.requested ≤ p.resource.frames ∨ p.resource.outcomeAt n = .ended) :
    Finale p (.finished .completed n) (p.messages n)
  /-- The resource failed before the requested count was reached, and that is told last. -/
  | resourceFailed (n : Nat) (e : StreamError) (all : p.resource.frames = n) (short : (n : ℕ∞) < p.requested)
    (failed : p.resource.outcomeAt n = .failed e) :
    Finale p (.finished .resourceFailed n) (p.messages n ++ [.error p.job.key e.message])

theorem producerAt_zero (p : Plan) : p.producerAt 0 = p.start.producer := rfl

theorem producerAt_stopped (p : Plan) (n : Nat) : (p.producerAt n).stopped = true ↔ p.requested ≤ (n : ℕ) := by
  have hlimit := p.atLimit_iff (show (p.producerAt n).limit = p.limit from rfl)
  rw [Producer.stopped, show (p.producerAt n).finished = false from rfl, Bool.false_or, hlimit]
  rfl

/-- The unit of an index is made from the frame of that read. -/
theorem exists_frame {i : Nat} (h : (i : ℕ∞) < p.units) :
    ∃ f, p.resource.outcomeAt i = .frame f ∧ p.unit i = ⟨i, f⟩ := by
  have hframe := Resource.isFrame_of_lt_frames (h.trans_le p.units_le_frames)
  cases ho : p.resource.outcomeAt i with
  | frame f => exact ⟨f, rfl, by simp [unit, ho, ReadOutcome.frame!]⟩
  | ended => simp [ho, ReadOutcome.isFrame] at hframe
  | failed e => simp [ho, ReadOutcome.isFrame] at hframe

theorem next_unit {n : Nat} (h : (n : ℕ∞) < p.units) :
    (p.producerAt n).next = (.unit (p.unit n), p.producerAt (n + 1)) := by
  have hgoing : ¬ (p.producerAt n).stopped = true := by
    rw [producerAt_stopped, not_le]
    exact h.trans_le p.units_le_requested
  obtain ⟨f, ho, hunit⟩ := exists_frame h
  have hpeek : (p.producerAt n).resource.peek = .frame f := (p.resource.peek_after n).trans ho
  rw [Producer.next, if_neg hgoing, Producer.take, hunit, hpeek]
  simp [producerAt, Resource.advance_after]

/-- The program tells the units of the plan in order, and goes on from there. -/
theorem inOrder_units (fuel : Nat) : ∀ {m n : Nat}, ((n + m : ℕ) : ℕ∞) ≤ p.units →
    (p.producerAt n).inOrder p.job.key p.processor (m + fuel) =
      ((List.range' n m).map p.message ++ ((p.producerAt (n + m)).inOrder p.job.key p.processor fuel).1,
        ((p.producerAt (n + m)).inOrder p.job.key p.processor fuel).2)
  | 0, n, _ => by simp
  | m + 1, n, h => by
    have hlt : (n : ℕ∞) < p.units := lt_of_lt_of_le (by exact_mod_cast Nat.lt_add_of_pos_right (by omega)) h
    have ih := inOrder_units fuel (m := m) (n := n + 1) (by rwa [Nat.add_right_comm])
    rw [Nat.add_right_comm, Producer.inOrder, next_unit hlt]
    simp only [ih, List.range'_succ, List.map_cons, List.cons_append, Nat.add_right_comm n 1 m, ← Nat.add_assoc]
    rfl

theorem range'_messages (n : Nat) : (List.range' 0 n).map p.message = p.messages n := by
  rw [messages, List.range_eq_range']

theorem sequential_of_le {n : Nat} (h : (n : ℕ∞) ≤ p.units) : p.sequential n = (p.messages n, none) := by
  have hn := inOrder_units 0 (m := n) (n := 0) (by simpa using h)
  simpa [sequential, producerAt_zero, range'_messages, Producer.inOrder] using hn

/-- Once there are no more, what follows is what the producer says then. -/
theorem sequential_of_reading {n reads fuel : Nat} {e : Option StreamError} (h : p.Reading n reads true e)
    (hn : (n : ℕ∞) ≤ p.units) (hfuel : n < fuel) :
    p.sequential fuel =
      match e with
      | none => (p.messages n, some (.finished .completed n))
      | some x => (p.messages n ++ [.error p.job.key x.message], some (.finished .resourceFailed n)) := by
  obtain ⟨rest, rfl⟩ := Nat.exists_eq_add_of_lt hfuel
  have hunits := inOrder_units (rest + 1) (m := n) (n := 0) (by simpa using hn)
  have hgoing : (n : ℕ∞) < p.requested → ¬ (p.producerAt n).stopped = true := by
    intro hl
    rw [producerAt_stopped, not_le]
    exact hl
  rw [Nat.zero_add, producerAt_zero, range'_messages, ← Nat.add_assoc] at hunits
  rw [sequential, hunits, Producer.inOrder, Producer.next]
  cases h with
  | limited hl =>
    rw [if_pos ((p.producerAt_stopped n).mpr hl.le)]
    simp [producerAt]
  | ended hl ho =>
    have hpeek : (p.producerAt n).resource.peek = .ended := (p.resource.peek_after n).trans ho
    rw [if_neg (hgoing hl), Producer.take, hpeek]
    simp [producerAt]
  | failed hl ho =>
    rename_i x
    have hpeek : (p.producerAt n).resource.peek = .failed x := (p.resource.peek_after n).trans ho
    rw [if_neg (hgoing hl), Producer.take, hpeek]
    simp [producerAt]

variable {pool : Pool} {c : Course}

theorem Tracks.sent_eq {reads hand : Nat} {places : List Nat} {sent : List Message} {d : Dispatch}
    (t : p.Tracks pool reads places sent d hand) (hopen : pool.closed = false) :
    sent = p.messages d.emitted ∧ (d.emitted : ℕ∞) ≤ p.units := by
  have told := t.told
  rw [hopen] at told
  have out := t.out
  exact ⟨told.eq_messages, le_trans (by exact_mod_cast by omega) t.within⟩

/-- What a dispatch has told over an open pool is what the program tells for some number of units. -/
theorem Along.delivered_eq (h : p.Along [] pool c) (hopen : pool.closed = false) :
    ∃ n, c.delivered = (p.sequential n).1 := by
  have settled : ∀ {reads hand : Nat} {places : List Nat} {sent : List Message} {d : Dispatch},
      p.Tracks pool reads places sent d hand → c.delivered = [] ++ sent →
      ∃ n, c.delivered = (p.sequential n).1 := by
    intro reads hand places sent d tracks hdelivered
    obtain ⟨hsent, hle⟩ := tracks.sent_eq hopen
    exact ⟨d.emitted, by rw [hdelivered, hsent, sequential_of_le hle, List.nil_append]⟩
  cases h with
  | refilling d sent phase tracks delivered => exact settled tracks delivered
  | reading d sent phase tracks delivered => exact settled tracks delivered
  | awaiting d f sent phase tracks delivered => exact settled tracks delivered
  | sending d m sent phase tracks delivered => exact settled tracks delivered
  | failing d e sent phase tracks delivered => exact settled tracks delivered
  | completed d sent phase tracks delivered => exact settled tracks delivered
  | failed d e sent phase tracks delivered lost all exhausted error =>
    obtain ⟨hsent, hle⟩ := tracks.sent_eq hopen
    have reading := (tracks.at_end exhausted all).1
    rw [error] at reading
    refine ⟨d.emitted + 1, ?_⟩
    rw [sequential_of_reading reading hle (Nat.lt_succ_self _), delivered, hsent]
    rfl
  | closed d hand sent phase tracks delivered => exact settled tracks delivered

/-- A dispatch over an open pool ends as the program does, or because its channel closed. -/
theorem Along.finale (h : p.Along [] pool c) (hopen : pool.closed = false) {o : JobOutcome}
    (hphase : c.phase = .returned o) :
    (p.Finale o c.delivered ∧ ∀ fuel, o.emitted < fuel → p.sequential fuel = (c.delivered, some o)) ∨
    (o = .finished .channelClosed o.emitted ∧ c.delivered = p.messages o.emitted) := by
  cases h with
  | completed d sent phase tracks delivered lost all exhausted error =>
    obtain ⟨hsent, hle⟩ := tracks.sent_eq hopen
    obtain ⟨reading, hunits, -⟩ := tracks.at_end exhausted all
    rw [error] at reading
    rw [hphase] at phase
    cases phase
    rw [delivered, hsent, List.nil_append]
    refine .inl ⟨.completed _ hunits ?_, fun fuel hfuel => sequential_of_reading reading hle hfuel⟩
    refine reading.of_none.imp (fun hl => ?_) And.right
    rw [hl, ← hunits]
    exact p.units_le_frames
  | failed d e sent phase tracks delivered lost all exhausted error =>
    obtain ⟨hsent, hle⟩ := tracks.sent_eq hopen
    have reading := (tracks.at_end exhausted all).1
    rw [error] at reading
    rw [hphase] at phase
    cases phase
    rw [delivered, hsent, List.nil_append]
    obtain ⟨hshort, hfailed⟩ := reading.of_some
    have hframes := Resource.frames_eq (hle.trans p.units_le_frames) (by simp [hfailed, ReadOutcome.isFrame])
    exact .inl ⟨.resourceFailed _ e hframes hshort hfailed,
      fun fuel hfuel => sequential_of_reading reading hle hfuel⟩
  | closed d hand sent phase tracks delivered lost =>
    obtain ⟨hsent, -⟩ := tracks.sent_eq hopen
    rw [hphase] at phase
    cases phase
    exact .inr ⟨rfl, by rw [delivered, hsent]; rfl⟩
  | _ => simp_all

/-- A dispatch makes at most five steps for each message of a unit, two for each place of the window, and three
more. -/
theorem steps_le {source : String → Except StreamError Resource} {allowed : Service → ServiceEvent → Bool}
    {s t : Service} {k : Nat} {es : List ServiceEvent} (hlaunch : s.courses[k]? = some (p.launch source))
    (hrun : s.run? allowed es = some t) (hc : t.courses[k]? = some c) :
    es.countP (·.isOf k) ≤ 5 * c.results + 2 * p.room + 3 := by
  obtain ⟨halong, hsteps⟩ := Service.run?_counts_course (n := 0) (I := fun n pool c => p.Along [] pool c ∧ n ≤ c.rank)
    (fun ⟨h, hn⟩ _ _ hs => ⟨h.step hs, Nat.lt_of_le_of_lt hn (h.rank_lt hs)⟩)
    (fun ⟨h, hn⟩ _ hs => ⟨h.moved (Service.step?_moved hs), hn⟩)
    rfl hlaunch ⟨along_start p s.pool rfl rfl rfl rfl rfl, Nat.zero_le _⟩ hrun hc
  have hrank := halong.rank_le rfl
  omega

/-- A dispatch over an open pool, among any other requests, refines the sequential program: it tells what the
program tells, and ends as the program does or because its channel closed. It can always be brought on until
it has returned, and the steps that bring it on are bounded by its messages. -/
theorem refines_sequential {p : Plan} {config : ServiceConfig} {size : Nat} {courses : List Course}
    {source : String → Except StreamError Resource} {allowed : Service → ServiceEvent → Bool} {k : Nat}
    {es : List ServiceEvent} {t : Service} {c : Course} (hlaunch : courses[k]? = some (p.launch source))
    (hlaw : ∀ u, allowed u (.pool .closed) = false)
    (hrun : Service.run? allowed ⟨config, .ofSize size, courses⟩ es = some t) (hc : t.courses[k]? = some c) :
    (∃ n, c.delivered = (p.sequential n).1) ∧
    (∀ o, c.phase = .returned o →
      (p.Finale o c.delivered ∧ ∀ fuel, o.emitted < fuel → p.sequential fuel = (c.delivered, some o)) ∨
      (o = .finished .channelClosed o.emitted ∧ c.delivered = p.messages o.emitted)) ∧
    ((∀ u e, allowed u (.course k e) = true → e.answers true false = true) →
      ∀ n, c.phase ≠ .returned (.finished .channelClosed n)) ∧
    (c.phase.outcome? = none → ∀ takes closed, ∃ e u, e.serves k takes closed = true ∧ t.step? e = some u) ∧
    es.countP (·.isOf k) ≤ 5 * c.results + 2 * p.room + 3 ∧
    es.countP (·.isPool) ≤ 2 * t.pool.tasks.length ∧
    ∀ i : Nat, (i : ℕ∞) < p.units → ∃ f, p.resource.outcomeAt i = .frame f ∧
      p.message i = (p.processor.process ⟨i, f⟩).message p.job.key i := by
  have halong := along_of_run hlaunch hrun hc
  have hopen : t.pool.closed = false := Service.run?_open hlaw rfl hrun
  have hslots : t.pool.Conserved := Service.run?_conserved (Pool.conserved_ofSize size) hrun
  refine ⟨halong.delivered_eq hopen, fun o ho => halong.finale hopen ho, ?_, ?_, ?_, ?_, ?_⟩
  · intro hsteady
    exact Service.run?_keeps_course (I := fun _ c => ∀ n, c.phase ≠ .returned (.finished .channelClosed n))
      (fun _ ha hs => Course.not_closed_step hs (hsteady _ _ ha)) (fun h _ => h) hlaunch (by simp [launch])
      hrun hc
  · intro hgoing takes closed
    exact Service.exists_step hc hslots (fun d f hp => halong.place_lt hp) hgoing takes closed
  · exact steps_le hlaunch hrun hc
  · have heffort := Service.run?_effort hrun
    have hle := t.pool.effort_le_of_open hopen
    omega
  · intro i hi
    obtain ⟨f, ho, hunit⟩ := exists_frame hi
    exact ⟨f, ho, by rw [message, hunit]⟩

/-- Both units of `brief` are out at once, and the second ends first. -/
def overtakingEvents : List ServiceEvent :=
  [.course 0 (.looked false), .course 0 .read, .course 0 (.looked false), .course 0 .read,
    .course 0 (.looked false), .pool (.started 0), .pool (.started 1), .pool (.finished 1), .pool (.finished 0),
    .course 0 .ended, .course 0 (.sent true), .course 0 (.looked false), .course 0 .read,
    .course 0 (.looked false), .course 0 .ended, .course 0 (.sent true), .course 0 (.looked false)]

/-- A unit that overtakes another changes nothing. -/
theorem refines_sequential_overtaking :
    ∃ t c, Service.run? (fun _ e => e.serves 0 true false) (brief.alone {} 2) overtakingEvents = some t ∧
      t.courses[0]? = some c ∧ c.phase = .returned (.finished .completed 2) ∧
      brief.sequential 3 = (c.delivered, some (.finished .completed 2)) := by
  obtain ⟨t, c, hrun, hc, hphase⟩ : ∃ t c,
      Service.run? (fun _ e => e.serves 0 true false) (brief.alone {} 2) overtakingEvents = some t ∧
        t.courses[0]? = some c ∧ c.phase = .returned (.finished .completed 2) := ⟨_, _, rfl, rfl, rfl⟩
  refine ⟨t, c, hrun, hc, hphase, ?_⟩
  rcases (refines_sequential rfl (fun _ => rfl) hrun hc).2.1 _ hphase with ⟨-, hsequential⟩ | ⟨hclosed, -⟩
  · exact hsequential 3 (by decide)
  · cases hclosed

end Plan
end FrameStream
