import FrameStream.Proofs.Pool.InTurn
import FrameStream.Proofs.Service.Transcript

/-!
# What the messages of units rest on

Every message of a unit that a client gets rests on the outcome of that unit in the pool (`Plan.Rests`), and the places
of the units ascend in the order of their indices. No step of a request and no change of the pool takes that away, for
an outcome stays once it is there.
-/

namespace FrameStream

theorem Dispatch.front_ne_sending (d d' : Dispatch) (m : Message) : d.front ≠ .sending d' m := by
  unfold front
  split
  · simp
  · split <;> simp [ending]

theorem Dispatch.refill_ne_sending (d d' : Dispatch) (closed : Bool) (m : Message) :
    d.refill closed ≠ .sending d' m := by
  unfold refill
  split
  · split
    · simp [ending]
    · split
      · exact front_ne_sending _ d' m
      · simp
  · exact front_ne_sending d d' m

theorem UnitOutcome.index?_message (key : String) (i : Nat) (o : UnitOutcome) : (o.message key i).index? = some i := by
  cases o <;> rfl

namespace Plan

/-- The unit of this index has ended in the pool, and the message says how. -/
def Rests (p : Plan) (pool : Pool) (places : List Nat) (i : Nat) (m : Message) : Prop :=
  ∃ place o, places[i]? = some place ∧ pool.outcome? place = some o ∧ m = o.message p.job.key i

/-- The units have their places in order, and every message of a unit that was or will be sent rests on its outcome. -/
structure Heard (p : Plan) (pool : Pool) (c : Course) : Prop where
  ordered : c.places.Pairwise (· < ·)
  told : ∀ m ∈ c.delivered, ∀ i, m.index? = some i → p.Rests pool c.places i m
  pending : ∀ d m, c.phase = .sending d m → p.Rests pool c.places d.emitted m

variable {p : Plan} {pool q : Pool} {lead : List Message} {c c' : Course}

theorem Rests.moved {places : List Nat} {i : Nat} {m : Message} (h : p.Rests pool places i m) (hm : pool.Moved q) :
    p.Rests q places i m := by
  obtain ⟨place, o, hplace, ho, rfl⟩ := h
  exact ⟨place, o, hplace, hm.outcome? ho, rfl⟩

theorem Rests.concat {places : List Nat} {i : Nat} {m : Message} (h : p.Rests pool places i m) (place : Nat) :
    p.Rests pool (places ++ [place]) i m := by
  obtain ⟨at', o, hplace, ho, rfl⟩ := h
  refine ⟨at', o, ?_, ho, rfl⟩
  rw [List.getElem?_append_left (List.getElem?_eq_some_iff.mp hplace).1, hplace]

theorem Heard.moved (h : p.Heard pool c) (hm : pool.Moved q) : p.Heard q c :=
  ⟨h.ordered, fun m hmem i hi => (h.told m hmem i hi).moved hm, fun d m hp => (h.pending d m hp).moved hm⟩

/-- A step that neither delivers a message nor submits a unit, and after which no message of a unit is about to be
sent. -/
theorem Heard.of_quiet (h : p.Heard pool c) (hplaces : c'.places = c.places) (hdelivered : c'.delivered = c.delivered)
    (hphase : ∀ d m, c'.phase ≠ .sending d m) : p.Heard pool c' :=
  ⟨hplaces ▸ h.ordered, fun m hm i hi => by rw [hplaces]; exact h.told m (hdelivered ▸ hm) i hi,
    fun d m hp => absurd hp (hphase d m)⟩

/-- A message was sent that is no unit's, or the one of a unit that was about to be sent. -/
theorem Heard.tell (h : p.Heard pool c) {m : Message} (hm : ∀ i, m.index? = some i → p.Rests pool c.places i m)
    (got : Bool) (hphase : ∀ d m, c.phase.answered got ≠ .sending d m) : p.Heard pool (c.tell m got) := by
  refine ⟨h.ordered, fun m' hmem i hi => ?_, fun d m' hp => absurd hp (hphase d m')⟩
  cases got with
  | true =>
    rcases List.mem_append.mp hmem with hold | hnew
    · exact h.told m' hold i hi
    · cases List.mem_singleton.mp hnew
      exact hm i hi
  | false => exact h.told m' hmem i hi

theorem heard_start (hphase : c.phase = .refilling p.start) (hplaces : c.places = [])
    (hquiet : ∀ m ∈ c.delivered, m.index? = none) : p.Heard pool c := by
  refine ⟨hplaces ▸ List.Pairwise.nil, fun m hm i hi => ?_, fun d m hp => ?_⟩
  · cases (hquiet m hm).symm.trans hi
  · cases hphase.symm.trans hp

/-- Every step of a request that follows its plan keeps what its messages rest on. -/
theorem Heard.step (h : p.Heard pool c) (along : p.Along lead pool c) {config : ServiceConfig} {e : CourseEvent}
    (hs : c.step? config pool e = some (c', q)) : p.Heard q c' := by
  cases along with
  | refilling d sent phase tracks delivered lost =>
    obtain ⟨closed, -, rfl, rfl⟩ := Course.step?_refilling phase hs
    exact h.of_quiet rfl rfl fun d' m => d.refill_ne_sending d' closed m
  | reading d sent phase tracks delivered lost going below space =>
    obtain ⟨-, hread⟩ := Course.step?_reading phase hs
    cases hf : d.producer.resource.peek with
    | frame f =>
      rw [Course.takeRead_frame phase hf] at hread
      cases hread
      have hmoved : pool.Moved (pool.submit d.processor ⟨d.producer.produced, f⟩) := .submitted _ _
      refine ⟨?_, fun m hm i hi => ?_, fun d' m hp => by simp at hp⟩
      · refine List.pairwise_append.mpr ⟨h.ordered, List.pairwise_singleton _ _, fun place hplace other hother => ?_⟩
        cases List.mem_singleton.mp hother
        obtain ⟨i, hi⟩ := List.mem_iff_getElem?.mp hplace
        obtain ⟨s, hs, -⟩ := tracks.held i place hi
        exact (List.getElem?_eq_some_iff.mp hs).1
      · exact ((h.told m hm i hi).moved hmoved).concat _
    | ended =>
      rw [Course.takeRead_ended phase hf] at hread
      cases hread
      exact h.of_quiet rfl rfl (by simp)
    | failed x =>
      rw [Course.takeRead_failed phase hf] at hread
      cases hread
      exact h.of_quiet rfl rfl (by simp)
  | awaiting d f sent phase tracks delivered lost index place full =>
    obtain ⟨o, -, ho, rfl, rfl⟩ := Course.step?_awaiting phase hs
    refine ⟨h.ordered, h.told, fun d' m hp => ?_⟩
    cases hp
    exact ⟨f.place, o, place, ho, by rw [message_eq, index, tracks.job]⟩
  | sending d m sent phase tracks delivered lost said full =>
    obtain ⟨got, -, rfl, rfl⟩ := Course.step?_sending (m := m) (by simp [phase, Phase.message?]) hs
    refine h.tell (fun i hi => ?_) got fun d' m' => ?_
    · have hpending := h.pending d m phase
      obtain ⟨place, o, -, -, rfl⟩ := id hpending
      rw [UnitOutcome.index?_message] at hi
      cases hi
      exact hpending
    · rw [phase]
      cases got <;> simp [Phase.answered, Dispatch.ending]
  | failing d x sent phase tracks delivered lost all exhausted error =>
    obtain ⟨got, -, rfl, rfl⟩ :=
      Course.step?_sending (m := .error d.job.key x.message) (by simp [phase, Phase.message?]) hs
    refine h.tell (fun i hi => by cases hi) got fun d' m' => ?_
    rw [phase]
    cases got <;> simp [Phase.answered, Dispatch.ending]
  | completed d sent phase => rw [Course.step?_returned phase] at hs; cases hs
  | failed d x sent phase => rw [Course.step?_returned phase] at hs; cases hs
  | closed d hand sent phase => rw [Course.step?_returned phase] at hs; cases hs

/-- Before its first unit a request has said nothing of units. -/
theorem Along.heard_of_quiet (along : p.Along lead pool c) (hplaces : c.places = [])
    (hquiet : ∀ m ∈ c.delivered, m.index? = none) : p.Heard pool c := by
  refine ⟨hplaces ▸ List.Pairwise.nil, fun m hm i hi => ?_, fun d m hp => ?_⟩
  · cases (hquiet m hm).symm.trans hi
  · obtain ⟨sent, tracks, -⟩ := along.at_sending hp
    have placed := tracks.placed
    have out := tracks.out
    rw [hplaces, List.length_nil] at placed
    omega

/-- The messages of units have the indices from zero on. -/
theorem Along.indices {key : String} (along : p.Along [.accepted key] pool c) :
    c.delivered.filterMap Message.index? = List.range c.results := by
  have told : ∀ {sent : List Message} {d : Dispatch} {hand : Nat}, p.Tracks pool c.reads c.places sent d hand →
      c.delivered = [.accepted key] ++ sent → c.delivered.filterMap Message.index? = List.range c.results := by
    intro sent d hand tracks hdelivered
    rw [tracks.results_eq rfl hdelivered, hdelivered, ← tracks.told.indices]
    rfl
  cases along with
  | refilling d sent phase tracks delivered => exact told tracks delivered
  | reading d sent phase tracks delivered => exact told tracks delivered
  | awaiting d f sent phase tracks delivered => exact told tracks delivered
  | sending d m sent phase tracks delivered => exact told tracks delivered
  | failing d e sent phase tracks delivered => exact told tracks delivered
  | completed d sent phase tracks delivered => exact told tracks delivered
  | closed d hand sent phase tracks delivered => exact told tracks delivered
  | failed d e sent phase tracks delivered =>
    have hresults : c.results = d.emitted := by
      rw [Course.results, delivered, List.countP_append, List.countP_append, tracks.told.countP]
      simp [Message.index?]
    rw [hresults, delivered, ← tracks.told.indices, List.filterMap_append, List.filterMap_append]
    exact List.append_nil _

/-- A request that has returned, and not because its channel closed, has told all its units. -/
theorem Along.results_eq_places {key : String} (along : p.Along [.accepted key] pool c) {o : JobOutcome}
    (hphase : c.phase = .returned o) (hstays : ∀ n, o ≠ .finished .channelClosed n) :
    c.results = c.places.length := by
  cases along with
  | completed d sent phase tracks delivered lost all =>
    rw [tracks.results_eq rfl delivered, tracks.placed, all]
  | failed d e sent phase tracks delivered lost all =>
    rw [tracks.placed, ← all, Course.results, delivered, List.countP_append, List.countP_append, tracks.told.countP]
    simp [Message.index?]
  | closed d hand sent phase =>
    rw [hphase] at phase
    cases phase
    exact absurd rfl (hstays d.emitted)
  | _ => simp_all

end Plan

/-! ## Whole requests -/

section Followed

variable (r : Request) (config : ServiceConfig) (registry : Registry) (source : String → Except StreamError Resource)

/-- The plan of the job that comes of a request. -/
inductive Planned : Plan → Prop where
  | ofJob {job : Job} {processor : Processor} {resource : Resource}
    (accepted : r.accept config.defaultModel registry = .ok (job, processor))
    (opened : source job.resource = .ok resource) : Planned (.ofJob config job processor resource)

/-- A request has not come to its units, or it follows its plan and its messages rest on outcomes. -/
inductive Followed (pool : Pool) (c : Course) : Prop where
  | early (places : c.places = []) (quiet : ∀ m ∈ c.delivered, m.index? = none)
  | dispatched (p : Plan) (planned : Planned r config registry source p)
    (along : p.Along [.accepted p.job.key] pool c) (heard : p.Heard pool c)

variable {r config registry source} {pool q : Pool} {c c' : Course}

theorem Planned.unique {p p' : Plan} (h : Planned r config registry source p)
    (h' : Planned r config registry source p') : p = p' := by
  obtain ⟨accepted, opened⟩ := h
  obtain ⟨accepted', opened'⟩ := h'
  cases accepted.symm.trans accepted'
  cases opened.symm.trans opened'
  rfl

theorem Followed.moved (h : Followed r config registry source pool c) (hm : pool.Moved q) :
    Followed r config registry source q c := by
  cases h with
  | early places quiet => exact .early places quiet
  | dispatched p planned along heard => exact .dispatched p planned (along.moved hm) (heard.moved hm)

theorem Followed.early_tell (hplaces : c.places = []) (hquiet : ∀ m ∈ c.delivered, m.index? = none) {m : Message}
    (hm : m.index? = none) (got : Bool) : Followed r config registry source pool (c.tell m got) := by
  refine .early hplaces fun m' hmem => ?_
  cases got with
  | true =>
    rcases List.mem_append.mp hmem with hold | hnew
    · exact hquiet m' hold
    · exact List.mem_singleton.mp hnew ▸ hm
  | false => exact hquiet m' hmem

theorem Followed.step (h : Followed r config registry c.source pool c)
    (handled : Handled r config registry c.source pool c) {e : CourseEvent}
    (hs : c.step? config pool e = some (c', q)) : Followed r config registry c.source q c' := by
  cases h with
  | dispatched p planned along heard => exact .dispatched p planned (along.step hs) (heard.step along hs)
  | early places quiet =>
    cases handled with
    | rejecting refusal refused phase =>
      obtain ⟨got, -, rfl, rfl⟩ := Course.step?_sending (m := .rejected r.key refusal.error.message)
        (by simp [phase, Phase.message?]) hs
      exact .early_tell places quiet rfl got
    | acknowledging job processor accepted phase =>
      obtain ⟨got, -, rfl, rfl⟩ := Course.step?_sending (m := .accepted job.key)
        (by simp [phase, Phase.message?]) hs
      exact .early_tell places quiet rfl got
    | reporting job processor x accepted failed phase =>
      obtain ⟨got, -, rfl, rfl⟩ := Course.step?_sending (m := .error job.key x.message)
        (by simp [phase, Phase.message?]) hs
      exact .early_tell places quiet rfl got
    | opening job processor accepted phase delivered lost reads =>
      obtain ⟨-, rfl, rfl⟩ := Course.step?_opening phase hs
      cases hopen : c.source job.resource with
      | error x => exact .early places quiet
      | ok resource =>
        have hlaunch := Plan.opened_ok job processor config resource
        exact .dispatched _ (.ofJob accepted hopen) (Plan.along_start _ _ hlaunch reads places delivered lost)
          (Plan.heard_start hlaunch places quiet)
    | dispatched job processor resource accepted opened along =>
      have heard := along.heard_of_quiet places quiet
      exact .dispatched _ (.ofJob accepted opened) (along.step hs) (heard.step along hs)
    | ended o phase transcript =>
      rw [Course.step?_returned phase] at hs
      cases hs

theorem Followed.indices (h : Followed r config registry source pool c) :
    c.delivered.filterMap Message.index? = List.range c.results := by
  cases h with
  | early places quiet =>
    have hnone : c.results = 0 := List.countP_eq_zero.mpr fun m hm => by simp [quiet m hm]
    rw [hnone, List.range_zero, List.filterMap_eq_nil_iff]
    exact quiet
  | dispatched p planned along heard => exact along.indices

theorem Followed.results_eq_places (h : Followed r config registry source pool c) {o : JobOutcome}
    (hphase : c.phase = .returned o) (hstays : ∀ n, o ≠ .finished .channelClosed n) :
    c.results = c.places.length := by
  cases h with
  | early places quiet =>
    rw [places, Course.results, List.length_nil, List.countP_eq_zero]
    exact fun m hm => by simp [quiet m hm]
  | dispatched p planned along heard => exact along.results_eq_places hphase hstays

theorem Followed.ordered (h : Followed r config registry source pool c) : c.places.Pairwise (· < ·) := by
  cases h with
  | early places quiet => exact places ▸ List.Pairwise.nil
  | dispatched p planned along heard => exact heard.ordered

/-- Every message of a unit rests on what became of that unit, which stands at its place. -/
theorem Followed.rests (h : Followed r config registry source pool c) {m : Message} (hm : m ∈ c.delivered) {i : Nat}
    (hi : m.index? = some i) : ∃ p place o, Planned r config registry source p ∧ c.places[i]? = some place ∧
      pool.Holds place p.processor (p.unit i) ∧ pool.outcome? place = some o ∧ m = o.message p.job.key i := by
  cases h with
  | early places quiet => cases (quiet m hm).symm.trans hi
  | dispatched p planned along heard =>
    obtain ⟨place, o, hplace, ho, rfl⟩ := heard.told m hm i hi
    obtain ⟨d, hand, sent, tracks, -⟩ := along.exists_tracks rfl
    exact ⟨p, place, o, planned, hplace, tracks.held i place hplace, ho, rfl⟩

end Followed
end FrameStream
