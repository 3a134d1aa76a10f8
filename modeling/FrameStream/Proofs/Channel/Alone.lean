import FrameStream.Proofs.Channel.Advance
import FrameStream.Proofs.Service.Solo

/-!
# A job on a channel and its request alone

On an open channel a job is told nothing by the channel but that its messages got through. So if its resource and its
processor depend on nothing else either, every step of the server leaves the job where it stands, or takes it the one
step that its request makes by itself on a channel that takes everything (`Docket.Advances.in_step`). Who else is on
the channel, and what is refused there, makes no difference.
-/

namespace FrameStream

/-- A channel that takes everything. -/
def Peer.steady : Peer := .ofCapacity none false

/-- Where a request stands by itself after `m` steps on a channel that takes everything. -/
def Request.alone (r : Request) (config : ServiceConfig) (registry : Registry)
    (source : String → Except StreamError Resource) (m : Nat) : Course :=
  (Course.next config .steady)^[m] (Course.ofRequest r config registry source).bare

namespace Course

variable {c : Course} {config : ServiceConfig} {peer : Peer}

theorem source_next (c : Course) : (c.next config peer).source = c.source := by
  unfold next
  split
  · rfl
  · cases hp : c.phase with
    | reading d =>
      obtain ⟨d', places, hnext, -⟩ := takeRead_spec (.ofSize 1) hp
      simp [hnext, bare]
    | _ => rfl

end Course

namespace Request

variable {r : Request} {config : ServiceConfig} {registry : Registry} {source : String → Except StreamError Resource}

theorem alone_succ (m : Nat) :
    r.alone config registry source (m + 1) = (r.alone config registry source m).next config .steady :=
  Function.iterate_succ_apply' ..

theorem source_alone : ∀ m, (r.alone config registry source m).source = source
  | 0 => rfl
  | m + 1 => by
    rw [alone_succ, Course.source_next]
    exact source_alone m

end Request

/-- The job is to make such a move next. -/
def JobMove.suits : JobMove → Phase → Bool
  | .opened _, .opening _ _ => true
  | .looked, .refilling _ => true
  | .read _, .reading _ => true
  | .ended _, .awaiting _ _ => true
  | _, _ => false

/-- The job is to move before it can send anything. -/
def Phase.moves : Phase → Bool
  | .opening _ _ | .refilling _ | .reading _ | .awaiting _ _ => true
  | _ => false

/-- A job that moves has nothing to say, one that has something to say does not move, and one that returned does
neither. -/
theorem Phase.cases (p : Phase) : p.moves = true ∨ (∃ m, p.message? = some m) ∨ ∃ o, p = .returned o := by
  cases p with
  | rejecting key x => exact .inr (.inl ⟨_, rfl⟩)
  | acknowledging job processor => exact .inr (.inl ⟨_, rfl⟩)
  | reporting job x => exact .inr (.inl ⟨_, rfl⟩)
  | sending d m => exact .inr (.inl ⟨_, rfl⟩)
  | failing d x => exact .inr (.inl ⟨_, rfl⟩)
  | returned o => exact .inr (.inr ⟨o, rfl⟩)
  | _ => exact .inl rfl

theorem JobMove.phase_of_not_suits {move : JobMove} {s : ChannelServer} {j : ChannelJob}
    (h : move.suits j.phase = false) : move.phase s j = j.phase := by
  cases hp : j.phase <;> cases move <;> simp_all [JobMove.phase, JobMove.suits, Phase.opened, Phase.looked,
    Phase.readDone, Phase.unitEnded]

namespace Docket

/-- The resource of the job `k` opens as `source` tells, and a unit of the job ends as its processor decides. -/
structure Obeys (d : Docket) (source : String → Except StreamError Resource) (k : Nat) (e : ServerEvent) :
    Prop where
  opened : ∀ j job processor result, d.server.jobs[k]? = some j → j.phase = .opening job processor →
    e = .moved k (.opened result) → result = source job.resource
  ended : ∀ j f u outcome, d.server.jobs[k]? = some j → j.phase = .awaiting f u → e = .moved k (.ended outcome) →
    outcome = f.processor.process (({ source, phase := j.phase } : Course).unitAt f.job u.index)

/-- A job stands where a request stands by itself, and its client has heard as much. -/
structure InStep (d : Docket) (l : Letter) (j : ChannelJob) (c : Course) : Prop where
  phase : c.phase = j.phase.bare
  heard : c.delivered = d.heard l

variable {d d' : Docket} {l : Letter} {j j' : ChannelJob} {m : Message} {k : Nat} {c : Course} {e : ServerEvent}
  {config : ServiceConfig} {move : JobMove}

theorem InStep.next_moved (h : d.InStep l j c) (hj : d.server.jobs[k]? = some j) (hsetting : d.server.config = config)
    (hopen : d.server.book.closed j.channel = false) (hobeys : d.Obeys c.source k (.moved k move))
    (hsuits : move.suits j.phase = true) :
    (c.next config .steady).phase = (move.phase d.server j).bare ∧ (c.next config .steady).delivered = c.delivered := by
  have hphase := h.phase
  cases hp : j.phase with
  | opening job processor =>
    cases move <;> simp [JobMove.suits, hp] at hsuits
    rename_i result
    obtain rfl := hobeys.opened j job processor result hj hp rfl
    rw [hp] at hphase
    cases ho : c.source job.resource <;>
      simp [Course.next, hphase, Phase.bare, Phase.message?, ho, Phase.opened, Dispatch.bare, JobMove.phase, hp,
        hsetting]
  | refilling f =>
    cases move <;> simp [JobMove.suits, hp] at hsuits
    rw [hp] at hphase
    simp only [Course.next, hphase, Phase.bare, Phase.message?, JobMove.phase, hp, Phase.looked, Dispatch.refill_bare,
      hopen]
    exact ⟨rfl, trivial⟩
  | reading f =>
    cases move <;> simp [JobMove.suits, hp] at hsuits
    rename_i pool
    rw [hp] at hphase
    have hread := congrArg Course.phase
      (Course.takeRead_bare (c := { source := c.source, phase := .reading f }) rfl pool)
    simp only [Course.next, hphase, Phase.bare, Phase.message?, JobMove.phase, hp]
    refine ⟨?_, ?_⟩
    · change (c.phase.readDone (.ofSize 1)).1.bare = _
      rw [hphase]
      exact hread
    · obtain ⟨d', places, hnext, -⟩ := Course.takeRead_spec (.ofSize 1) hphase
      rw [hnext]
      rfl
  | awaiting f u =>
    cases move <;> simp [JobMove.suits, hp] at hsuits
    rename_i outcome
    obtain rfl := hobeys.ended j f u outcome hj hp rfl
    rw [hp] at hphase
    simp only [Course.next, hphase, Phase.bare, Phase.message?, JobMove.phase, hp, Phase.unitEnded]
    exact ⟨rfl, trivial⟩
  | _ => cases move <;> simp [JobMove.suits, hp] at hsuits

/-- What a job says on an open channel, its request says by itself. -/
theorem InStep.next_said (h : d.InStep l j c) (hm : j.phase.message? = some m)
    (hsaid : d'.said = d.said ++ [(l, m)]) : d'.InStep l (j.answered true) (c.next config .steady) := by
  have hmessage : c.phase.message? = some m := by rw [h.phase, Phase.message?_bare, hm]
  have hnext : c.next config .steady = c.tell m true := by simp only [Course.next, hmessage]; rfl
  rw [hnext]
  refine ⟨?_, ?_⟩
  · change c.phase.answered true = (j.phase.answered true).bare
    rw [h.phase, Phase.answered_bare]
  · change c.delivered ++ [m] = d'.heard l
    rw [(heard_append hsaid l).trans (if_pos rfl), h.heard]

/-- A step on an open channel leaves a job where it stands, or is a step that its request makes by itself. -/
theorem Advances.in_step (ha : d.Advances d' e k l j j') (h : d.InStep l j c) (hj : d.server.jobs[k]? = some j)
    (hsetting : d.server.config = config) (hchannel : j.channel = l.connection)
    (hopen : d.server.book.closed l.connection = false) (hobeys : d.Obeys c.source k e) :
    d'.InStep l j' c ∨ d'.InStep l j' (c.next config .steady) := by
  cases ha with
  | stays home phase ticket kept gave heard => exact .inl ⟨phase ▸ h.phase, heard ▸ h.heard⟩
  | moved move event after heard =>
    subst after event
    cases hsuits : move.suits j.phase with
    | false => exact .inl ⟨(JobMove.phase_of_not_suits hsuits).symm ▸ h.phase, heard ▸ h.heard⟩
    | true =>
      obtain ⟨hphase, hdelivered⟩ := h.next_moved hj hsetting (hchannel.symm ▸ hopen) hobeys hsuits
      exact .inr ⟨hphase, hdelivered.trans (heard ▸ h.heard)⟩
  | waits m message before last after heard =>
    subst after
    exact .inl ⟨h.phase, heard ▸ h.heard⟩
  | said m message last opened after said => exact .inr (after ▸ h.next_said message said)
  | lost m message last gone after heard =>
    rw [hopen] at gone
    cases gone

end Docket
end FrameStream
