import FrameStream.Proofs.Service.Progress
import FrameStream.Proofs.Service.Transcript

/-!
# A request by itself

Where its units stand in the pool is nothing a request depends on. `Course.bare` forgets the places, and
`Course.next` is the step that then remains: it takes the outcome of a unit from the processor and needs no
pool. If the channel answers by what it was given, every step that a request makes over an open pool is this
one, whoever else uses the pool (`Handled.bare_step`). So after a number of steps a request stands where it
stands by itself after as many.
-/

namespace FrameStream

/-- A channel as its sender meets it: what it does next depends on the messages it was given. -/
structure Peer where
  /-- The next message is taken. -/
  takes : List Message → Bool
  /-- It says of itself that it is closed. -/
  saysClosed : List Message → Bool

/-- A channel that takes so many messages, or all. It may say so when it takes no more. -/
def Peer.ofCapacity (capacity : Option Nat) (reports : Bool) : Peer where
  takes given := capacity.all fun n => decide (given.length < n)
  saysClosed given := reports && capacity.any fun n => decide (n ≤ given.length)

def Dispatch.bare (d : Dispatch) : Dispatch := { d with inFlight := d.inFlight.map fun f => { f with place := 0 } }

/-- The phase without the places of units. -/
def Phase.bare : Phase → Phase
  | .refilling d => .refilling d.bare
  | .reading d => .reading d.bare
  | .awaiting d f => .awaiting d.bare { f with place := 0 }
  | .sending d m => .sending d.bare m
  | .failing d e => .failing d.bare e
  | p => p

namespace Dispatch

theorem front_bare (d : Dispatch) : d.bare.front = d.front.bare := by
  cases hf : d.inFlight with
  | nil =>
    cases he : d.readError <;> simp [front, bare, hf, he, Phase.bare, ending]
  | cons f rest => simp [front, bare, hf, Phase.bare]

theorem refill_bare (d : Dispatch) (closed : Bool) : d.bare.refill closed = (d.refill closed).bare := by
  have hroom : d.bare.hasRoom = d.hasRoom := by simp [hasRoom, bare]
  unfold refill
  rw [hroom]
  split
  · split
    · rfl
    · change (if d.producer.stopped = true then _ else _) = _
      split
      · exact front_bare { d with exhausted := true, producer := { d.producer with finished := true } }
      · rfl
  · exact front_bare d

end Dispatch

namespace Phase

theorem message?_bare (p : Phase) : p.bare.message? = p.message? := by
  cases p <;> rfl

theorem answered_bare (p : Phase) (delivered : Bool) : p.bare.answered delivered = (p.answered delivered).bare := by
  cases p <;> cases delivered <;> rfl

theorem outcome?_bare (p : Phase) : p.bare.outcome? = p.outcome? := by
  cases p <;> rfl

end Phase

namespace Course

def bare (c : Course) : Course := { c with phase := c.phase.bare, places := [] }

theorem bare_delivered (c : Course) : c.bare.delivered = c.delivered := rfl

theorem bare_outcome? (c : Course) : c.bare.phase.outcome? = c.phase.outcome? := c.phase.outcome?_bare

/-- The unit of an index, read from the resource of the job. -/
def unitAt (c : Course) (job : Job) (index : Nat) : WorkUnit :=
  match c.source job.resource with
  | .ok resource => ⟨index, (resource.outcomeAt index).frame!⟩
  | .error _ => default

/-- The one step of a request by itself. -/
def next (config : ServiceConfig) (peer : Peer) (c : Course) : Course :=
  match c.phase.message? with
  | some m => c.tell m (peer.takes c.delivered)
  | none =>
    match c.phase with
    | .opening job p => { c with phase := (Phase.opening job p).opened config (c.source job.resource) }
    | .refilling d => { c with phase := d.refill (peer.saysClosed c.delivered) }
    | .reading _ => (c.takeRead (.ofSize 1)).1.bare
    | .awaiting d f =>
      { c with phase := .sending d (d.message f.index (d.processor.process (c.unitAt d.job f.index))) }
    | _ => c

theorem tell_bare (c : Course) (m : Message) (delivered : Bool) :
    c.bare.tell m delivered = (c.tell m delivered).bare := by
  simp only [tell, bare, Phase.answered_bare]

/-- What a read brings does not depend on the pool. -/
theorem takeRead_bare {c : Course} {d : Dispatch} (hp : c.phase = .reading d) (pool : Pool) :
    (c.bare.takeRead (.ofSize 1)).1.bare = (c.takeRead pool).1.bare := by
  have hbare : c.bare.phase = .reading d.bare := by simp [bare, hp, Phase.bare]
  cases hf : d.producer.resource.peek with
  | frame f =>
    rw [takeRead_frame hp hf, takeRead_frame hbare hf]
    simp [bare, Phase.bare, Dispatch.bare]
  | ended =>
    rw [takeRead_ended hp hf, takeRead_ended hbare hf]
    simp [bare, Phase.bare, Dispatch.bare]
  | failed x =>
    rw [takeRead_failed hp hf, takeRead_failed hbare hf]
    simp [bare, Phase.bare, Dispatch.bare]

section Next

variable {config : ServiceConfig} {peer : Peer}

theorem next_returned {c : Course} {o : JobOutcome} (hp : c.phase = .returned o) : c.next config peer = c := by
  simp [next, hp, Phase.message?]

theorem delivered_next (c : Course) : c.delivered <+: (c.next config peer).delivered := by
  unfold next
  split
  · unfold tell
    split
    · exact List.prefix_append _ _
    · exact List.prefix_rfl
  · cases hp : c.phase with
    | reading d =>
      obtain ⟨d', places, hnext, -⟩ := takeRead_spec (.ofSize 1) hp
      simp [hnext, bare]
    | _ => exact List.prefix_rfl

theorem delivered_iterate {m n : Nat} (h : m ≤ n) (c : Course) :
    ((next config peer)^[m] c).delivered <+: ((next config peer)^[n] c).delivered := by
  induction n, h using Nat.le_induction with
  | base => exact List.prefix_rfl
  | succ n hmn ih =>
    rw [Function.iterate_succ_apply']
    exact ih.trans (delivered_next _)

/-- Once a request has returned, more steps change nothing. -/
theorem iterate_returned {m n : Nat} (h : m ≤ n) {c : Course} {o : JobOutcome}
    (hp : ((next config peer)^[m] c).phase = .returned o) :
    (next config peer)^[n] c = (next config peer)^[m] c := by
  induction n, h using Nat.le_induction with
  | base => rfl
  | succ n hmn ih => rw [Function.iterate_succ_apply', ih, next_returned hp]

end Next
/-- Every step but the end of a unit is the same over all pools. -/
theorem bare_step {config : ServiceConfig} {pool q : Pool} {c c' : Course} {peer : Peer} {e : CourseEvent}
    (he : e ≠ .ended) (ha : e.answers (peer.takes c.delivered) (peer.saysClosed c.delivered) = true)
    (hs : c.step? config pool e = some (c', q)) : c'.bare = c.bare.next config peer := by
  have hnext : c.bare.phase.message? = c.phase.message? := c.phase.message?_bare
  cases e with
  | sent delivered =>
    obtain ⟨m, hm, hc⟩ := Option.map_eq_some_iff.mp hs
    cases hc
    have hgot : delivered = peer.takes c.delivered := by simpa [CourseEvent.answers] using ha
    subst hgot
    rw [next, hnext, hm, ← tell_bare]
    rfl
  | opened =>
    cases hp : c.phase <;> simp [step?, hp, Phase.reference?] at hs
    rename_i job p
    rw [← hs.1]
    cases ho : c.source job.resource <;>
      simp [next, bare, hp, Phase.bare, Phase.message?, ho, Phase.opened, Dispatch.bare]
  | looked said =>
    cases hp : c.phase <;> simp [step?, hp] at hs
    rename_i d
    have hsaid : said = peer.saysClosed c.delivered := by simpa [CourseEvent.answers] using ha
    subst hsaid
    rw [← hs.1]
    simp only [next, bare, hp, Phase.bare, Phase.message?, Phase.looked, Dispatch.refill_bare]
  | read =>
    cases hp : c.phase <;> simp [step?, hp] at hs
    rename_i d
    have hbare : c.bare.phase = .reading d.bare := by simp [bare, hp, Phase.bare]
    have hread := takeRead_bare hp pool
    rw [hs] at hread
    simp only [next, hbare, Phase.message?, hread]
  | ended => exact absurd rfl he

end Course

section Handled

variable {r : Request} {config : ServiceConfig} {registry : Registry} {pool q : Pool} {c c' : Course}

/-- Over an open pool the unit in front ends as its processor decides. -/
theorem Handled.outcome_eq (h : Handled r config registry c.source pool c) (hopen : pool.closed = false)
    {d : Dispatch} {f : Flight} (hphase : c.phase = .awaiting d f) {o : UnitOutcome}
    (ho : pool.outcome? f.place = some o) : o = d.processor.process (c.unitAt d.job f.index) := by
  cases h with
  | dispatched job processor resource accepted opened along =>
    cases along with
    | awaiting d' f' sent phase tracks delivered lost index place full =>
      rw [hphase] at phase
      cases phase
      have hjob : d.job = job := tracks.job
      have hprocessor : d.processor = processor := tracks.processor
      have hunit : c.unitAt d.job f.index = (Plan.ofJob config job processor resource).unit d.emitted := by
        rw [Course.unitAt, hjob, opened, index]
        rfl
      rcases (tracks.held _ _ place).outcome ho with houtcome | ⟨hclosed, -⟩
      · rw [houtcome, hunit, hprocessor]
        rfl
      · rw [hopen] at hclosed
        cases hclosed
    | _ => simp_all [Dispatch.ending]
  | _ => simp_all

/-- Over an open pool a request makes the step it makes by itself. -/
theorem Handled.bare_step (h : Handled r config registry c.source pool c) (hopen : pool.closed = false)
    {peer : Peer} {e : CourseEvent} (ha : e.answers (peer.takes c.delivered) (peer.saysClosed c.delivered) = true)
    (hs : c.step? config pool e = some (c', q)) : c'.bare = c.bare.next config peer := by
  by_cases he : e = .ended
  · subst he
    cases hp : c.phase <;> simp [Course.step?, hp] at hs
    rename_i d f
    obtain ⟨o, ho, hc, -⟩ := hs
    rw [← hc, h.outcome_eq hopen hp ho]
    simp only [Course.next, Course.bare, hp, Phase.bare, Phase.message?, Phase.unitEnded, Plan.message_eq]
    rfl
  · exact Course.bare_step he ha hs

end Handled
end FrameStream
