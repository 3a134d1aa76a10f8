import FrameStream.Proofs.Channel.Steps

/-!
# What a job has said so far

A job says first of all whether it is accepted or rejected. After a rejection it says nothing more; after an acceptance
it never says either again.
-/

namespace FrameStream

/-- The message accepts or rejects a request. -/
def Message.isAdmission : Message → Bool
  | .accepted _ => true
  | .rejected _ _ => true
  | _ => false

/-- The request was accepted, and what is said from now on is about its units or its resource. -/
def Phase.working : Phase → Bool
  | .rejecting _ _ => false
  | .acknowledging _ _ => false
  | .sending _ m => m.index?.isSome
  | _ => true

namespace Phase

variable {p : Phase} {m : Message}

theorem working_message (h : p.working = true) (hm : p.message? = some m) : m.isAdmission = false := by
  cases p with
  | sending d u =>
    cases hm
    cases m <;> simp_all [working, Message.index?, Message.isAdmission]
  | reporting job e =>
    cases hm
    rfl
  | failing d e =>
    cases hm
    rfl
  | rejecting key e => cases h
  | acknowledging job processor => cases h
  | _ => cases hm

theorem working_front (d : Dispatch) : d.front.working = true := by
  unfold Dispatch.front
  split
  · rfl
  · split <;> rfl

theorem working_refill (d : Dispatch) (closed : Bool) : (d.refill closed).working = true := by
  unfold Dispatch.refill
  split
  · split
    · rfl
    · split
      · exact working_front _
      · rfl
  · exact working_front d

theorem working_answered (h : p.working = true) (delivered : Bool) : (p.answered delivered).working = true := by
  cases p with
  | rejecting key e => cases h
  | acknowledging job processor => cases h
  | _ => cases delivered <;> simp_all [answered, working, Dispatch.ending]

theorem working_readDone (h : p.working = true) (pool : Pool) : (p.readDone pool).1.working = true := by
  cases p with
  | reading d =>
    simp only [readDone]
    split <;> rfl
  | _ => exact h

end Phase

/-- A job that has not been told to move on, or has returned, does not move. -/
theorem JobMove.phase_of_not_working {m : JobMove} {s : ChannelServer} {j : ChannelJob}
    (h : j.phase.working = false) : m.phase s j = j.phase := by
  cases hp : j.phase <;> cases m <;> simp_all [JobMove.phase, Phase.opened, Phase.looked, Phase.readDone,
    Phase.unitEnded, Phase.working]

theorem JobMove.phase_of_returned {m : JobMove} {s : ChannelServer} {j : ChannelJob} {o : JobOutcome}
    (h : j.phase = .returned o) : m.phase s j = .returned o := by
  cases m <;> simp [JobMove.phase, h, Phase.opened, Phase.looked, Phase.readDone, Phase.unitEnded]

theorem JobMove.working_phase {m : JobMove} {s : ChannelServer} {j : ChannelJob} (h : j.phase.working = true) :
    (m.phase s j).working = true := by
  cases m with
  | opened result =>
    simp only [JobMove.phase]
    cases hp : j.phase with
    | opening job processor => cases result <;> rfl
    | _ => simpa [Phase.opened, hp] using h
  | looked =>
    simp only [JobMove.phase]
    cases hp : j.phase with
    | refilling d => exact Phase.working_refill d _
    | _ => simpa [Phase.looked, hp] using h
  | read pool => exact Phase.working_readDone h pool
  | ended outcome =>
    simp only [JobMove.phase]
    cases hp : j.phase with
    | awaiting d f => cases outcome <;> rfl
    | _ => simpa [Phase.unitEnded, hp] using h

/-- What a job for the request `r` has said when it stands in a phase. It may have said nothing at all once its
channel is closed. -/
inductive Speech (r : Request) (config : ServiceConfig) (registry : Registry) (closed : Bool) :
    Phase → List Message → Prop where
  | rejecting (x : Refusal) (refused : r.accept config.defaultModel registry = .error x) :
    Speech r config registry closed (.rejecting r.key x.error) []
  | acknowledging (job : Job) (processor : Processor)
      (accepted : r.accept config.defaultModel registry = .ok (job, processor)) :
    Speech r config registry closed (.acknowledging job processor) []
  | rejected (x : Refusal) (refused : r.accept config.defaultModel registry = .error x) (o : JobOutcome) :
    Speech r config registry closed (.returned o) [.rejected r.key x.error.message]
  | unheard (o : JobOutcome) (gone : closed = true) : Speech r config registry closed (.returned o) []
  | accepted (job : Job) (processor : Processor)
      (accepted : r.accept config.defaultModel registry = .ok (job, processor)) (p : Phase)
      (working : p.working = true) (rest : List Message) (later : ∀ m ∈ rest, m.isAdmission = false) :
    Speech r config registry closed p (.accepted job.key :: rest)

section

variable {r : Request} {config : ServiceConfig} {registry : Registry} {closed closed' : Bool} {p : Phase}
  {heard : List Message} {m : Message}

theorem speech_start : Speech r config registry closed (Phase.start r config registry) [] := by
  unfold Phase.start
  cases ha : r.accept config.defaultModel registry with
  | error x => exact .rejecting x ha
  | ok admitted => exact .acknowledging admitted.1 admitted.2 ha

theorem Speech.mono (h : Speech r config registry closed p heard) (hc : closed = true → closed' = true) :
    Speech r config registry closed' p heard := by
  cases h with
  | rejecting x refused => exact .rejecting x refused
  | acknowledging job processor accepted => exact .acknowledging job processor accepted
  | rejected x refused o => exact .rejected x refused o
  | unheard o gone => exact .unheard o (hc gone)
  | accepted job processor accepted p working rest later =>
    exact .accepted job processor accepted p working rest later

theorem Speech.moved {j : ChannelJob} {s : ChannelServer} (h : Speech r config registry closed j.phase heard)
    (move : JobMove) : Speech r config registry closed (move.phase s j) heard := by
  cases hworking : j.phase.working with
  | false =>
    rw [JobMove.phase_of_not_working hworking]
    exact h
  | true =>
    have hmoved := move.working_phase (s := s) hworking
    generalize hp : j.phase = p at h hworking
    cases h with
    | rejecting x refused => cases hworking
    | acknowledging job processor accepted => cases hworking
    | rejected x refused o =>
      rw [JobMove.phase_of_returned hp]
      exact .rejected x refused o
    | unheard o gone =>
      rw [JobMove.phase_of_returned hp]
      exact .unheard o gone
    | accepted job processor accepted p working rest later =>
      exact .accepted job processor accepted _ hmoved rest later

/-- A job rejects its request under the key of the request, for the rule that the request breaks. -/
theorem Speech.of_rejected {key : Option String} {reason : String} (h : Speech r config registry closed p heard)
    (hmem : .rejected key reason ∈ heard) : key = r.key ∧ ∃ x : Refusal, reason = x.error.message := by
  cases h with
  | rejected x refused o =>
    injection List.mem_singleton.mp hmem with hkey hreason
    exact ⟨hkey, x, hreason⟩
  | accepted job processor accepted p working rest later =>
    rcases List.mem_cons.mp hmem with heq | hlater
    · cases heq
    · cases later _ hlater
  | _ => cases hmem

/-- A job on an open channel that has said nothing is about to say its first message. -/
theorem Speech.silent (h : Speech r config registry false p []) :
    (∃ m, p.message? = some m) ∧ ∀ q delivered, p ≠ Phase.answered delivered q := by
  cases h with
  | rejecting x refused =>
    refine ⟨⟨_, rfl⟩, fun q delivered => ?_⟩
    cases q <;> cases delivered <;> nofun
  | acknowledging job processor accepted =>
    refine ⟨⟨_, rfl⟩, fun q delivered => ?_⟩
    cases q <;> cases delivered <;> nofun
  | unheard o gone => cases gone

/-- The message that a job was about to say got into the queue. -/
theorem Speech.delivered (h : Speech r config registry closed p heard) (hm : p.message? = some m) :
    Speech r config registry closed (p.answered true) (heard ++ [m]) := by
  cases h with
  | rejecting x refused =>
    cases hm
    exact .rejected x refused _
  | acknowledging job processor accepted =>
    cases hm
    exact .accepted job processor accepted _ rfl [] nofun
  | rejected x refused o => cases hm
  | unheard o gone => cases hm
  | accepted job processor accepted p working rest later =>
    refine .accepted job processor accepted _ (Phase.working_answered working true) (rest ++ [m]) fun m' hm' => ?_
    rcases List.mem_append.mp hm' with hrest | hlast
    · exact later m' hrest
    · rw [List.mem_singleton.mp hlast]
      exact Phase.working_message working hm

/-- Nobody took the message that a job was about to say. -/
theorem Speech.undelivered (h : Speech r config registry true p heard) (hm : p.message? = some m) :
    Speech r config registry true (p.answered false) heard := by
  cases h with
  | rejecting x refused => exact .unheard _ rfl
  | acknowledging job processor accepted => exact .unheard _ rfl
  | rejected x refused o => cases hm
  | unheard o gone => cases hm
  | accepted job processor accepted p working rest later =>
    exact .accepted job processor accepted _ (Phase.working_answered working false) rest later

end
end FrameStream
