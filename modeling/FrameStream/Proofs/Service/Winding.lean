import FrameStream.Proofs.Service.Progress

/-!
# A request whose channel is gone

Once its channel takes nothing any more and says so, a request begins no read and tells nothing. The read that is under
way may still submit one unit; but for that, every step leads to the end, and there are four of them at most, or one
more for a slot that is given back before the last message.
-/

namespace FrameStream

namespace Phase

/-- The reads that are under way. -/
def underWay : Phase → Nat
  | .reading _ => 1
  | _ => 0

/-- The steps that are left at most on a channel that is closed; the slot may still have to be given back before the
last message. -/
def left (released : Bool) : Phase → Nat
  | .rejecting _ _ | .reporting _ _ | .failing _ _ => if released then 1 else 2
  | .acknowledging _ _ | .sending _ _ => 1
  | .awaiting _ _ => 2
  | .refilling _ => 3
  | .reading _ | .opening _ _ => 4
  | .returned _ => 0

theorem left_le (released : Bool) (p : Phase) : p.left released ≤ 4 := by
  cases p <;> cases released <;> simp [left]

/-- Giving back the slot leaves no more to do. -/
theorem left_mono {released released' : Bool} (h : released = true → released' = true) (p : Phase) :
    p.left released' ≤ p.left released := by
  cases released <;> cases released' <;> cases p <;> simp_all [left]

theorem left_front (released : Bool) (d : Dispatch) : d.front.left released ≤ 2 ∧ d.front.underWay = 0 := by
  unfold Dispatch.front
  split
  · exact ⟨Nat.le_refl 2, rfl⟩
  · split
    · cases released
      · exact ⟨Nat.le_refl 2, rfl⟩
      · exact ⟨Nat.le_succ 1, rfl⟩
    · exact ⟨Nat.zero_le 2, rfl⟩

/-- Who looks at a closed channel begins no read. -/
theorem left_refill (released : Bool) (d : Dispatch) :
    (d.refill true).left released ≤ 2 ∧ (d.refill true).underWay = 0 := by
  unfold Dispatch.refill
  split
  · exact ⟨Nat.zero_le 2, rfl⟩
  · exact left_front released d

/-- A message that nobody takes is the last thing that a request does. -/
theorem unheard {p : Phase} {m : Message} (h : p.message? = some m) (released : Bool) :
    0 < p.left released ∧ p.underWay = 0 ∧ ∃ o, p.answered false = .returned o := by
  cases p with
  | rejecting key e => cases released <;> exact ⟨by simp [left], rfl, _, rfl⟩
  | acknowledging job processor => exact ⟨Nat.zero_lt_one, rfl, _, rfl⟩
  | reporting job e => cases released <;> exact ⟨by simp [left], rfl, _, rfl⟩
  | sending d m => exact ⟨Nat.zero_lt_one, rfl, _, rfl⟩
  | failing d e => cases released <;> exact ⟨by simp [left], rfl, _, rfl⟩
  | _ => cases h

end Phase

namespace Course

variable {config : ServiceConfig} {pool q : Pool} {c c' : Course} {e : CourseEvent}

theorem readsBegun_eq (c : Course) : c.readsBegun = c.reads + c.phase.underWay := by
  cases hp : c.phase <;> simp [readsBegun, hp, Phase.underWay]

/-- What a step of a request is once its channel is closed. -/
structure Winds (c c' : Course) : Prop where
  delivered : c'.delivered = c.delivered
  begun : c'.readsBegun = c.readsBegun
  /-- A unit comes from the read that was under way, if there was one. -/
  places : ∃ more, c'.places = c.places ++ more ∧ more.length + c'.phase.underWay ≤ c.phase.underWay
  left : ∀ released, c'.phase.left released < c.phase.left released

/-- A step in which nothing is read and nothing is told leads on. -/
theorem winds_still (hdelivered : c'.delivered = c.delivered) (hreads : c'.reads = c.reads)
    (hplaces : c'.places = c.places) (hnone : c.phase.underWay = 0) (hnone' : c'.phase.underWay = 0)
    (hleft : ∀ released, c'.phase.left released < c.phase.left released) : c.Winds c' where
  delivered := hdelivered
  begun := by rw [readsBegun_eq, readsBegun_eq, hreads, hnone, hnone']
  places := ⟨[], by rw [hplaces, List.append_nil], by rw [hnone, hnone']; exact Nat.le_refl 0⟩
  left := hleft

theorem winds_read {d : Dispatch} (pool : Pool) (hp : c.phase = .reading d) : c.Winds (c.takeRead pool).1 := by
  obtain ⟨d', places, hnext, hpool⟩ := takeRead_spec pool hp
  have hphase : (c.takeRead pool).1.phase = .refilling d' := by rw [hnext]
  have hreads : (c.takeRead pool).1.reads = c.reads + 1 := by rw [hnext]
  have hplaces : (c.takeRead pool).1.places = c.places ++
      List.range' pool.tasks.length ((c.takeRead pool).2.tasks.length - pool.tasks.length) := rfl
  refine ⟨by rw [hnext], ?_, ⟨_, hplaces, ?_⟩, fun released => ?_⟩
  · rw [readsBegun_eq, readsBegun_eq, hphase, hp, hreads]
    rfl
  · rw [hphase, hp, List.length_range']
    show (c.takeRead pool).2.tasks.length - pool.tasks.length + 0 ≤ 1
    rcases hpool with hsame | ⟨u, hsubmit⟩
    · rw [hsame]
      omega
    · rw [hsubmit, Pool.submit, List.length_append, List.length_singleton]
      omega
  · rw [hphase, hp]
    exact Nat.lt_succ_self 3

/-- Every step on a closed channel leads to the end. -/
theorem winds_step (ha : e.answers false true = true) (hs : c.step? config pool e = some (c', q)) : c.Winds c' := by
  cases hm : c.phase.message? with
  | some m =>
    obtain ⟨delivered, rfl, rfl, rfl⟩ := step?_sending hm hs
    obtain rfl : delivered = false := by simpa [CourseEvent.answers] using ha
    obtain ⟨-, hnone, o, ho⟩ := Phase.unheard hm true
    have hphase : (c.tell m false).phase = .returned o := ho
    refine winds_still rfl rfl rfl hnone (by rw [hphase]; rfl) fun released => ?_
    rw [hphase]
    exact (Phase.unheard hm released).1
  | none =>
    cases hp : c.phase with
    | opening job processor =>
      obtain ⟨-, rfl, rfl⟩ := step?_opening hp hs
      cases hopen : c.source job.resource with
      | error x =>
        refine winds_still rfl rfl rfl (by rw [hp]; rfl) rfl fun released => ?_
        rw [hp]
        cases released <;> simp [Phase.opened, Phase.left]
      | ok resource =>
        refine winds_still rfl rfl rfl (by rw [hp]; rfl) rfl fun released => ?_
        rw [hp]
        exact Nat.lt_succ_self 3
    | refilling d =>
      obtain ⟨closed, rfl, rfl, rfl⟩ := step?_refilling hp hs
      obtain rfl : closed = true := by simpa [CourseEvent.answers] using ha
      refine winds_still rfl rfl rfl (by rw [hp]; rfl) (Phase.left_refill true d).2 fun released => ?_
      rw [hp]
      exact Nat.lt_succ_of_le (Phase.left_refill released d).1
    | reading d =>
      obtain ⟨-, hread⟩ := step?_reading hp hs
      have hwinds := winds_read pool hp
      rw [hread] at hwinds
      exact hwinds
    | awaiting d f =>
      obtain ⟨o, -, -, rfl, rfl⟩ := step?_awaiting hp hs
      refine winds_still rfl rfl rfl (by rw [hp]; rfl) rfl fun released => ?_
      rw [hp]
      exact Nat.lt_succ_self 1
    | returned o =>
      rw [step?_returned hp] at hs
      cases hs
    | _ => simp [hp, Phase.message?] at hm

end Course
end FrameStream
