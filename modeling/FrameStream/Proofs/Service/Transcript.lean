import FrameStream.Proofs.Request.Accept
import FrameStream.Proofs.Service.Progress

/-!
# What a client is told about a whole request

`Transcript` lists how a request can end, with the messages its client got and the one message, if any, that
nobody took. A request that follows the functions on phases ends in one of these ways and in no other,
whatever its channel answers, whenever its channel closes, whatever other requests do, and whenever the pool
is closed (`request_transcript`).
-/

namespace FrameStream

/-- The plan of a job whose resource has opened. -/
def Plan.ofJob (config : ServiceConfig) (job : Job) (processor : Processor) (resource : Resource) : Plan :=
  ⟨job, processor, config.window, resource, job.requested⟩

section Transcripts

variable (r : Request) (config : ServiceConfig) (registry : Registry)
  (source : String → Except StreamError Resource)

/-- The end of a request, the messages delivered and the message lost. The pool may be `closed`. -/
inductive Transcript (closed : Bool) : JobOutcome → List Message → List Message → Prop where
  /-- The request is refused, and the client is told why. -/
  | rejected (refusal : Refusal) (refused : r.accept config.defaultModel registry = .error refusal) :
    Transcript closed (.rejected refusal.error) [.rejected r.key refusal.error.message] []
  /-- The request is refused, and nobody is left to tell. -/
  | unheard (refusal : Refusal) (refused : r.accept config.defaultModel registry = .error refusal) :
    Transcript closed (.rejected refusal.error) [] [.rejected r.key refusal.error.message]
  /-- Nobody took the acknowledgment. -/
  | unacknowledged (job : Job) (processor : Processor)
    (accepted : r.accept config.defaultModel registry = .ok (job, processor)) :
    Transcript closed .channelClosed [] [.accepted job.key]
  /-- The resource cannot be opened, and the client is told. -/
  | unavailable (job : Job) (processor : Processor) (e : StreamError)
    (accepted : r.accept config.defaultModel registry = .ok (job, processor))
    (failed : source job.resource = .error e) :
    Transcript closed (.unavailable e) [.accepted job.key, .error job.key e.message] []
  /-- The resource cannot be opened, and nobody took the message about it. -/
  | unreported (job : Job) (processor : Processor) (e : StreamError)
    (accepted : r.accept config.defaultModel registry = .ok (job, processor))
    (failed : source job.resource = .error e) :
    Transcript closed .channelClosed [.accepted job.key] [.error job.key e.message]
  /-- Every unit was told, up to the requested count or the end of the resource. -/
  | completed (job : Job) (processor : Processor) (resource : Resource) (n : Nat) (sent : List Message)
    (accepted : r.accept config.defaultModel registry = .ok (job, processor))
    (opened : source job.resource = .ok resource)
    (told : (Plan.ofJob config job processor resource).Told closed n sent)
    (all : (Plan.ofJob config job processor resource).units = n)
    (ended : (Plan.ofJob config job processor resource).requested = n ∨ resource.outcomeAt n = .ended) :
    Transcript closed (.finished .completed n) (.accepted job.key :: sent) []
  /-- The resource failed after `n` frames, and the client is told after all units. -/
  | resourceFailed (job : Job) (processor : Processor) (resource : Resource) (n : Nat) (sent : List Message)
    (e : StreamError) (accepted : r.accept config.defaultModel registry = .ok (job, processor))
    (opened : source job.resource = .ok resource)
    (told : (Plan.ofJob config job processor resource).Told closed n sent)
    (all : resource.frames = n) (failed : resource.outcomeAt n = .failed e) :
    Transcript closed (.finished .resourceFailed n)
      (.accepted job.key :: (sent ++ [.error job.key e.message])) []
  /-- The channel closed after `n` units. Nobody took the next message, if there was one. -/
  | cut (job : Job) (processor : Processor) (resource : Resource) (n : Nat) (sent lost : List Message)
    (accepted : r.accept config.defaultModel registry = .ok (job, processor))
    (opened : source job.resource = .ok resource)
    (told : (Plan.ofJob config job processor resource).Told closed n sent)
    (within : (n : ℕ∞) ≤ (Plan.ofJob config job processor resource).units)
    (last : lost = [] ∨ (∃ m, lost = [m] ∧ (Plan.ofJob config job processor resource).Says closed n m) ∨
      ∃ e, lost = [.error job.key e.message] ∧ resource.outcomeAt n = .failed e) :
    Transcript closed (.finished .channelClosed n) (.accepted job.key :: sent) lost

/-- Where a request stands, from its first step to its end. -/
inductive Handled (pool : Pool) (c : Course) : Prop where
  | rejecting (refusal : Refusal) (refused : r.accept config.defaultModel registry = .error refusal)
    (phase : c.phase = .rejecting r.key refusal.error) (delivered : c.delivered = []) (lost : c.lost = [])
  | acknowledging (job : Job) (processor : Processor)
    (accepted : r.accept config.defaultModel registry = .ok (job, processor))
    (phase : c.phase = .acknowledging job processor) (delivered : c.delivered = []) (lost : c.lost = [])
    (reads : c.reads = 0) (places : c.places = [])
  | opening (job : Job) (processor : Processor)
    (accepted : r.accept config.defaultModel registry = .ok (job, processor))
    (phase : c.phase = .opening job processor) (delivered : c.delivered = [.accepted job.key])
    (lost : c.lost = []) (reads : c.reads = 0) (places : c.places = [])
  | reporting (job : Job) (processor : Processor) (e : StreamError)
    (accepted : r.accept config.defaultModel registry = .ok (job, processor))
    (failed : source job.resource = .error e) (phase : c.phase = .reporting job e)
    (delivered : c.delivered = [.accepted job.key]) (lost : c.lost = [])
  | dispatched (job : Job) (processor : Processor) (resource : Resource)
    (accepted : r.accept config.defaultModel registry = .ok (job, processor))
    (opened : source job.resource = .ok resource)
    (along : (Plan.ofJob config job processor resource).Along [.accepted job.key] pool c)
  | ended (o : JobOutcome) (phase : c.phase = .returned o)
    (transcript : Transcript r config registry source pool.closed o c.delivered c.lost)

variable {r config registry source} {pool q : Pool} {c c' : Course}

theorem Transcript.mono {closed closed' : Bool} (hc : closed = true → closed' = true) {o : JobOutcome}
    {delivered lost : List Message} (h : Transcript r config registry source closed o delivered lost) :
    Transcript r config registry source closed' o delivered lost := by
  cases h with
  | rejected refusal refused => exact .rejected refusal refused
  | unheard refusal refused => exact .unheard refusal refused
  | unacknowledged job processor accepted => exact .unacknowledged job processor accepted
  | unavailable job processor e accepted failed => exact .unavailable job processor e accepted failed
  | unreported job processor e accepted failed => exact .unreported job processor e accepted failed
  | completed job processor resource n sent accepted opened told all ended =>
    exact .completed job processor resource n sent accepted opened (told.mono hc) all ended
  | resourceFailed job processor resource n sent e accepted opened told all failed =>
    exact .resourceFailed job processor resource n sent e accepted opened (told.mono hc) all failed
  | cut job processor resource n sent lost accepted opened told within last =>
    refine .cut job processor resource n sent lost accepted opened (told.mono hc) within
      (last.imp id (.imp ?_ id))
    rintro ⟨m, hlost, said⟩
    exact ⟨m, hlost, said.mono hc⟩

theorem handled_start (pool : Pool) (hc : c = Course.ofRequest r config registry source) :
    Handled r config registry source pool c := by
  subst hc
  cases ha : r.accept config.defaultModel registry with
  | error refusal => exact .rejecting refusal ha (by simp [Course.ofRequest, Phase.start, ha]) rfl rfl
  | ok admitted =>
    obtain ⟨job, processor⟩ := admitted
    exact .acknowledging job processor ha (by simp [Course.ofRequest, Phase.start, ha]) rfl rfl rfl rfl

theorem Handled.moved (h : Handled r config registry source pool c) (hm : pool.Moved q) :
    Handled r config registry source q c := by
  cases h with
  | rejecting refusal refused phase delivered lost => exact .rejecting refusal refused phase delivered lost
  | acknowledging job processor accepted phase delivered lost reads places =>
    exact .acknowledging job processor accepted phase delivered lost reads places
  | opening job processor accepted phase delivered lost reads places =>
    exact .opening job processor accepted phase delivered lost reads places
  | reporting job processor e accepted failed phase delivered lost =>
    exact .reporting job processor e accepted failed phase delivered lost
  | dispatched job processor resource accepted opened along =>
    exact .dispatched job processor resource accepted opened (along.moved hm)
  | ended o phase transcript => exact .ended o phase (transcript.mono hm.closed)

/-- Every step of a request keeps to the protocol. -/
theorem Handled.step (h : Handled r config registry c.source pool c) {e : CourseEvent}
    (hs : c.step? config pool e = some (c', q)) : Handled r config registry c.source q c' := by
  cases h with
  | rejecting refusal refused phase delivered lost =>
    obtain ⟨got, -, rfl, rfl⟩ := Course.step?_sending (m := .rejected r.key refusal.error.message)
      (by simp [phase, Phase.message?]) hs
    refine .ended (.rejected refusal.error) (by simp [Course.tell, phase, Phase.answered]) ?_
    cases got with
    | true => simpa [Course.tell, delivered, lost] using Transcript.rejected refusal refused
    | false => simpa [Course.tell, delivered, lost] using Transcript.unheard refusal refused
  | acknowledging job processor accepted phase delivered lost reads places =>
    obtain ⟨got, -, rfl, rfl⟩ := Course.step?_sending (m := .accepted job.key)
      (by simp [phase, Phase.message?]) hs
    cases got with
    | true =>
      exact .opening job processor accepted (by simp [Course.tell, phase, Phase.answered])
        (by simp [Course.tell, delivered]) lost reads places
    | false =>
      refine .ended .channelClosed (by simp [Course.tell, phase, Phase.answered]) ?_
      simpa [Course.tell, delivered, lost] using Transcript.unacknowledged job processor accepted
  | opening job processor accepted phase delivered lost reads places =>
    obtain ⟨-, rfl, rfl⟩ := Course.step?_opening phase hs
    cases hopen : c.source job.resource with
    | error x =>
      exact .reporting job processor x accepted hopen (by simp [Phase.opened]) delivered lost
    | ok resource =>
      refine .dispatched job processor resource accepted hopen ?_
      exact Plan.along_start _ _ (Plan.opened_ok job processor config resource) reads places delivered lost
  | reporting job processor x accepted failed phase delivered lost =>
    obtain ⟨got, -, rfl, rfl⟩ := Course.step?_sending (m := .error job.key x.message)
      (by simp [phase, Phase.message?]) hs
    cases got with
    | true =>
      refine .ended (.unavailable x) (by simp [Course.tell, phase, Phase.answered]) ?_
      simpa [Course.tell, delivered, lost] using Transcript.unavailable job processor x accepted failed
    | false =>
      refine .ended .channelClosed (by simp [Course.tell, phase, Phase.answered]) ?_
      simpa [Course.tell, delivered, lost] using Transcript.unreported job processor x accepted failed
  | dispatched job processor resource accepted opened along =>
    exact .dispatched job processor resource accepted opened (along.step hs)
  | ended o phase transcript =>
    rw [Course.step?_returned phase] at hs
    cases hs

/-- A dispatch that has returned has told its client what the plan says. -/
theorem Plan.Along.transcript {job : Job} {processor : Processor} {resource : Resource}
    (along : (Plan.ofJob config job processor resource).Along [.accepted job.key] pool c)
    (accepted : r.accept config.defaultModel registry = .ok (job, processor))
    (opened : source job.resource = .ok resource) {o : JobOutcome} (hphase : c.phase = .returned o) :
    Transcript r config registry source pool.closed o c.delivered c.lost := by
  cases along with
  | completed d sent phase tracks delivered lost all exhausted error =>
    rw [hphase] at phase
    cases phase
    obtain ⟨reading, hunits, -⟩ := tracks.at_end exhausted all
    rw [error] at reading
    rw [delivered, lost]
    exact .completed job processor resource d.emitted sent accepted opened tracks.told hunits
      (reading.of_none.imp id And.right)
  | failed d x sent phase tracks delivered lost all exhausted error =>
    rw [hphase] at phase
    cases phase
    obtain ⟨reading, hunits, -⟩ := tracks.at_end exhausted all
    rw [error] at reading
    have hfailed : resource.outcomeAt d.emitted = .failed x := reading.of_some.2
    have hframes : resource.frames = d.emitted :=
      Resource.frames_eq (hunits.ge.trans (Plan.units_le_frames _)) (by simp [hfailed, ReadOutcome.isFrame])
    rw [delivered, lost]
    exact .resourceFailed job processor resource d.emitted sent x accepted opened tracks.told hframes hfailed
  | closed d hand sent phase tracks delivered lost =>
    rw [hphase] at phase
    cases phase
    rw [delivered]
    refine .cut job processor resource d.emitted sent c.lost accepted opened tracks.told ?_ ?_
    · have hle : d.emitted ≤ d.produced := by
        have out := tracks.out
        omega
      exact (Nat.cast_le.mpr hle).trans tracks.within
    · refine lost.imp id (.imp id ?_)
      rintro ⟨x, hlost, all, exhausted, error⟩
      have reading := (tracks.at_end exhausted all).1
      rw [error] at reading
      exact ⟨x, hlost, reading.of_some.2⟩
  | _ => simp_all

theorem Handled.transcript (h : Handled r config registry source pool c) {o : JobOutcome}
    (hphase : c.phase = .returned o) :
    Transcript r config registry source pool.closed o c.delivered c.lost := by
  cases h with
  | dispatched job processor resource accepted opened along => exact along.transcript accepted opened hphase
  | ended o' phase transcript =>
    rw [hphase] at phase
    cases phase
    exact transcript
  | _ => simp_all

theorem Handled.place_lt (h : Handled r config registry source pool c) {d : Dispatch} {f : Flight}
    (hphase : c.phase = .awaiting d f) : f.place < pool.tasks.length := by
  cases h with
  | dispatched job processor resource accepted opened along => exact along.place_lt hphase
  | _ => simp_all

/-! ## What all messages of a request have in common -/

namespace Plan

variable {p : Plan} {closed : Bool}

theorem Says.key {i : Nat} {m : Message} (h : p.Says closed i m) : m.key? = some p.job.key := by
  rcases h with rfl | ⟨-, rfl⟩
  · unfold message
    cases p.processor.process (p.unit i) <;> rfl
  · rfl

theorem Says.not_last {i : Nat} {m : Message} (h : p.Says closed i m) : m.isLast = false := by
  rcases h with rfl | ⟨-, rfl⟩
  · unfold message
    cases p.processor.process (p.unit i) <;> rfl
  · rfl

theorem Told.indices {n : Nat} {sent : List Message} (h : p.Told closed n sent) :
    sent.filterMap Message.index? = List.range n := by
  have hmap : sent.map Message.index? = (List.range n).map some := by
    apply List.ext_getElem?
    intro i
    by_cases hi : i < n
    · have hlt : i < sent.length := h.length_eq ▸ hi
      rw [List.getElem?_map, List.getElem?_eq_getElem hlt, Option.map_some,
        (h.said i _ (List.getElem?_eq_getElem hlt)).index]
      simp [hi]
    · have hle : sent.length ≤ i := by
        rw [h.length_eq]
        omega
      rw [List.getElem?_map, List.getElem?_eq_none hle, List.getElem?_eq_none (by simpa using hi)]
      rfl
  calc sent.filterMap Message.index?
      = (sent.map Message.index?).filterMap id := by rw [List.filterMap_map]; rfl
    _ = ((List.range n).map some).filterMap id := by rw [hmap]
    _ = List.range n := by rw [List.filterMap_map]; exact List.filterMap_some

theorem Told.mem {n : Nat} {sent : List Message} (h : p.Told closed n sent) {m : Message} (hm : m ∈ sent) :
    ∃ i, p.Says closed i m := by
  obtain ⟨i, hi⟩ := List.mem_iff_getElem?.mp hm
  exact ⟨i, h.said i m hi⟩

end Plan

theorem Transcript.key {closed : Bool} {o : JobOutcome} {delivered lost : List Message}
    (h : Transcript r config registry source closed o delivered lost) :
    ∀ m ∈ delivered, m.key? = r.key := by
  have told : ∀ {job : Job} {processor : Processor} {resource : Resource} {n : Nat} {sent : List Message},
      (Plan.ofJob config job processor resource).Told closed n sent →
      r.accept config.defaultModel registry = .ok (job, processor) → ∀ m ∈ sent, m.key? = r.key := by
    intro job processor resource n sent hsent accepted m hm
    obtain ⟨i, said⟩ := hsent.mem hm
    rw [said.key, Request.accept_key accepted]
    rfl
  cases h with
  | rejected refusal refused => simp [Message.key?]
  | unheard refusal refused => simp
  | unacknowledged job processor accepted => simp
  | unavailable job processor e accepted failed => simp [Message.key?, Request.accept_key accepted]
  | unreported job processor e accepted failed => simp [Message.key?, Request.accept_key accepted]
  | completed job processor resource n sent accepted opened hsent all ended =>
    simpa [Message.key?, Request.accept_key accepted] using told hsent accepted
  | resourceFailed job processor resource n sent e accepted opened hsent all failed =>
    intro m hm
    simp only [List.mem_cons, List.mem_append, List.not_mem_nil, or_false] at hm
    rcases hm with rfl | hm | rfl
    · simp [Message.key?, Request.accept_key accepted]
    · exact told hsent accepted m hm
    · simp [Message.key?, Request.accept_key accepted]
  | cut job processor resource n sent lost accepted opened hsent within last =>
    simpa [Message.key?, Request.accept_key accepted] using told hsent accepted

theorem Transcript.indices {closed : Bool} {o : JobOutcome} {delivered lost : List Message}
    (h : Transcript r config registry source closed o delivered lost) :
    delivered.filterMap Message.index? = List.range o.emitted := by
  cases h with
  | completed job processor resource n sent accepted opened hsent all ended => exact hsent.indices
  | resourceFailed job processor resource n sent e accepted opened hsent all failed =>
    change (sent ++ [Message.error job.key e.message]).filterMap Message.index? = List.range n
    rw [List.filterMap_append, hsent.indices]
    exact List.append_nil _
  | cut job processor resource n sent lost accepted opened hsent within last => exact hsent.indices
  | _ => simp [Message.index?, JobOutcome.emitted]

/-- Nothing follows a refusal or an error for the whole request. -/
theorem Transcript.nothing_follows {closed : Bool} {o : JobOutcome} {delivered lost : List Message}
    (h : Transcript r config registry source closed o delivered lost) :
    ∀ m ∈ delivered.dropLast, m.isLast = false := by
  have told : ∀ {job : Job} {processor : Processor} {resource : Resource} {n : Nat} {sent : List Message},
      (Plan.ofJob config job processor resource).Told closed n sent →
      ∀ m ∈ Message.accepted job.key :: sent, m.isLast = false := by
    intro job processor resource n sent hsent m hm
    rcases List.mem_cons.mp hm with rfl | hm
    · rfl
    · obtain ⟨i, said⟩ := hsent.mem hm
      exact said.not_last
  cases h with
  | completed job processor resource n sent accepted opened hsent all ended =>
    exact fun m hm => told hsent m (List.dropLast_subset _ hm)
  | resourceFailed job processor resource n sent e accepted opened hsent all failed =>
    rw [← List.cons_append, List.dropLast_concat]
    exact told hsent
  | cut job processor resource n sent lost accepted opened hsent within last =>
    exact fun m hm => told hsent m (List.dropLast_subset _ hm)
  | _ => simp [Message.isLast]

end Transcripts

/-- A request that has returned has told its client what its outcome stands for, and nothing else. One that has
not returned can be brought on. -/
theorem request_transcript {r : Request} {config : ServiceConfig} {registry : Registry}
    {source : String → Except StreamError Resource} {size : Nat} {courses : List Course}
    {allowed : Service → ServiceEvent → Bool} {k : Nat} {es : List ServiceEvent} {t : Service} {c : Course}
    (hstart : courses[k]? = some (Course.ofRequest r config registry source))
    (hrun : Service.run? allowed ⟨config, .ofSize size, courses⟩ es = some t) (hc : t.courses[k]? = some c) :
    (∀ o, c.phase = .returned o →
      Transcript r config registry source t.pool.closed o c.delivered c.lost ∧
      (∀ m ∈ c.delivered, m.key? = r.key) ∧
      c.delivered.filterMap Message.index? = List.range o.emitted ∧
      ∀ m ∈ c.delivered.dropLast, m.isLast = false) ∧
    (c.phase.outcome? = none → ∀ takes closed, ∃ e u, e.serves k takes closed = true ∧ t.step? e = some u) := by
  obtain ⟨-, handled⟩ := Service.run?_keeps_course
    (I := fun pool c => c.source = source ∧ Handled r config registry source pool c)
    (fun ⟨hsource, h⟩ _ hs => by
      refine ⟨(Course.source_step hs).trans hsource, ?_⟩
      subst hsource
      exact h.step hs)
    (fun ⟨hsource, h⟩ hm => ⟨hsource, h.moved hm⟩)
    hstart ⟨rfl, handled_start _ rfl⟩ hrun hc
  refine ⟨fun o ho => ?_, fun hgoing takes closed => ?_⟩
  · have transcript := handled.transcript ho
    exact ⟨transcript, transcript.key, transcript.indices, transcript.nothing_follows⟩
  · have hslots : t.pool.Conserved := Service.run?_conserved (Pool.conserved_ofSize size) hrun
    exact Service.exists_step hc hslots (fun d f hphase => handled.place_lt hphase) hgoing takes closed

/-- A request to echo a resource that gives one frame and then fails, in a window of zero. -/
def cutShort : Service where
  config := { window := 0, defaultModel := "echo" }
  pool := .ofSize 1
  courses := [Course.ofRequest { key := some "k", resource := some "v" } { window := 0, defaultModel := "echo" }
    Registry.builtins fun _ => .ok { outcomes := [.frame default, .failed (.internal "lost")] }]

/-- The pool is closed while the unit runs, and the client takes every message. -/
def cutShortEvents : List ServiceEvent :=
  [.course 0 (.sent true), .course 0 .opened, .course 0 (.looked false), .course 0 .read, .course 0 (.looked true),
    .pool (.started 0), .pool .closed, .pool (.finished 0), .course 0 .ended, .course 0 (.sent true),
    .course 0 (.looked false), .course 0 .read, .course 0 (.looked false), .course 0 (.sent true)]

/-- The error of the resource is told last, after the frame before it. -/
theorem request_transcript_cut_short :
    ∃ t c, Service.run? (fun _ _ => true) cutShort cutShortEvents = some t ∧ t.courses[0]? = some c ∧
      c.phase = .returned (.finished .resourceFailed 1) ∧ (∀ m ∈ c.delivered, m.key? = some "k") ∧
      c.delivered.filterMap Message.index? = [0] ∧ ∀ m ∈ c.delivered.dropLast, m.isLast = false := by
  obtain ⟨t, c, hrun, hc, hphase⟩ : ∃ t c, Service.run? (fun _ _ => true) cutShort cutShortEvents = some t ∧
      t.courses[0]? = some c ∧ c.phase = .returned (.finished .resourceFailed 1) := ⟨_, _, rfl, rfl, rfl⟩
  exact ⟨t, c, hrun, hc, hphase, ((request_transcript rfl hrun hc).1 _ hphase).2⟩

end FrameStream
