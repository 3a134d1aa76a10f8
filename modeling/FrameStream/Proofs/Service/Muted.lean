import FrameStream.Proofs.Service.Isolation

/-!
# What a request does apart from what its units say

A pool that is closed changes what the messages of units say, and nothing else: which messages there are, under which
index and in which order, and how the request ends. `Course.mute` forgets what the messages of units say. A request on
a channel that stays open takes, but for that, the same steps as by itself, whether the pool is closed or not
(`Errand.EchoesAt`).
-/

namespace FrameStream

/-- The message without what the unit says. -/
def Message.mute : Message → Message
  | .result key index _ => .unitError key index ""
  | .unitError key index _ => .unitError key index ""
  | m => m

/-- The phase without what the message of a unit says. -/
def Phase.mute : Phase → Phase
  | .sending d m => .sending d m.mute
  | p => p

/-- A channel that takes every message and never says that it is closed. -/
def Peer.Stays (peer : Peer) : Prop := ∀ given, peer.takes given = true ∧ peer.saysClosed given = false

theorem Message.index?_mute (m : Message) : m.mute.index? = m.index? := by
  cases m <;> rfl

@[simp] theorem Message.mute_mute (m : Message) : m.mute.mute = m.mute := by
  cases m <;> rfl

theorem Message.mute_of_index? {m : Message} (h : m.index? = none) : m.mute = m := by
  cases m with
  | result key index data => cases h
  | unitError key index reason => cases h
  | _ => rfl

/-- Apart from what a unit says, its message is known before the unit has ended. -/
theorem Dispatch.mute_message (d : Dispatch) (i : Nat) (o : UnitOutcome) :
    (d.message i o).mute = .unitError d.job.key i "" := by
  cases o <;> rfl

namespace Phase

theorem message?_mute (p : Phase) : p.mute.message? = p.message?.map Message.mute := by
  cases p <;> rfl

theorem answered_mute (p : Phase) (delivered : Bool) : p.mute.answered delivered = (p.answered delivered).mute := by
  cases p <;> cases delivered <;> rfl

@[simp] theorem mute_mute (p : Phase) : p.mute.mute = p.mute := by
  cases p <;> simp [mute]

theorem outcome?_mute (p : Phase) : p.mute.outcome? = p.outcome? := by
  cases p <;> rfl

end Phase

namespace Course

def mute (c : Course) : Course :=
  { c with phase := c.phase.mute, delivered := c.delivered.map Message.mute, lost := c.lost.map Message.mute }

@[simp] theorem mute_mute (c : Course) : c.mute.mute = c.mute := by
  simp [mute]

theorem bare_mute (c : Course) : c.mute.bare = c.bare.mute := by
  cases hp : c.phase <;> simp [bare, mute, hp, Phase.bare, Phase.mute]

theorem tell_mute (c : Course) (m : Message) (delivered : Bool) :
    c.mute.tell m.mute delivered = (c.tell m delivered).mute := by
  cases delivered <;> simp [tell, mute, Phase.answered_mute]

variable {config : ServiceConfig} {peer : Peer}

/-- By itself on a channel that stays, a request steps the same whatever its units said. -/
theorem next_mute (h : peer.Stays) (c : Course) : (c.mute.next config peer).mute = (c.next config peer).mute := by
  have htakes : ∀ given, peer.takes given = true := fun given => (h given).1
  have hopen : ∀ given, peer.saysClosed given = false := fun given => (h given).2
  have hmessage : c.mute.phase.message? = c.phase.message?.map Message.mute := c.phase.message?_mute
  cases hm : c.phase.message? with
  | some m =>
    rw [hm] at hmessage
    simp only [next, hmessage, hm, Option.map_some, htakes, tell_mute, mute_mute]
  | none =>
    rw [hm] at hmessage
    cases hp : c.phase with
    | opening job p => simp [next, mute, hp, Phase.mute, Phase.message?]
    | refilling d => simp [next, mute, hp, Phase.mute, Phase.message?, hopen]
    | reading d =>
      have hmute : c.mute.phase = .reading d := by rw [mute, hp]; rfl
      have hread : (c.mute.takeRead (.ofSize 1)).1 = (c.takeRead (.ofSize 1)).1.mute := by
        cases hf : d.producer.resource.peek with
        | frame f =>
          rw [takeRead_frame hmute hf, takeRead_frame hp hf]
          rfl
        | ended =>
          rw [takeRead_ended hmute hf, takeRead_ended hp hf]
          rfl
        | failed e =>
          rw [takeRead_failed hmute hf, takeRead_failed hp hf]
          rfl
      simp only [next, hmute, hp, Phase.message?, hread, bare_mute, mute_mute]
    | awaiting d f => simp [next, mute, hp, Phase.mute, Phase.message?, unitAt]
    | returned o => simp [next, mute, hp, Phase.mute, Phase.message?]
    | _ => simp [hp, Phase.message?] at hm

theorem next_mute_congr (h : peer.Stays) {c d : Course} (hcd : c.mute = d.mute) :
    (c.next config peer).mute = (d.next config peer).mute := by
  rw [← next_mute h c, ← next_mute h d, hcd]

/-- A step over any pool is the step by itself, but for what a unit says. -/
theorem mute_step {pool q : Pool} {c c' : Course} {e : CourseEvent}
    (ha : e.answers (peer.takes c.delivered) (peer.saysClosed c.delivered) = true)
    (hs : c.step? config pool e = some (c', q)) : c'.bare.mute = (c.bare.next config peer).mute := by
  by_cases he : e = .ended
  · subst he
    cases hp : c.phase <;> simp [step?, hp] at hs
    rename_i d f
    obtain ⟨o, -, hc, -⟩ := hs
    rw [← hc]
    simp [next, bare, mute, hp, Phase.bare, Phase.mute, Phase.message?, Phase.unitEnded, Dispatch.mute_message,
      Dispatch.bare]
  · rw [bare_step he ha hs]

end Course

/-! ## Requests that differ in what their units say -/

/-- The channel of request `k` answers by what it was given, as this one does. -/
def Peer.Governs (peer : Peer) (allowed : Service → ServiceEvent → Bool) (k : Nat) : Prop :=
  ∀ s c e, s.courses[k]? = some c → allowed s (.course k e) = true →
    e.answers (peer.takes c.delivered) (peer.saysClosed c.delivered) = true

/-- But for what its units say, the request stands where it stands by itself after `n` steps. -/
def Errand.EchoesAt (errand : Errand) (config : ServiceConfig) (registry : Registry) (n : Nat) (c : Course) : Prop :=
  c.bare.mute = ((Course.next config errand.peer)^[n] (errand.course config registry).bare).mute

section Echoes

variable {config : ServiceConfig} {registry : Registry} {size k n m : Nat} {errands : List Errand} {errand : Errand}
  {allowed : Service → ServiceEvent → Bool} {es : List ServiceEvent} {t : Service} {c c' : Course}

theorem governs_lawOf (he : errands[k]? = some errand) : errand.peer.Governs (lawOf errands) k :=
  fun _ _ e hc ha => (lawOf_course he hc e).symm.trans ha

/-- On a channel that stays open a request echoes itself over any pool, whatever becomes of the pool. -/
theorem echoesAt_of_run (hlaw : errand.peer.Governs allowed k) (hstays : errand.peer.Stays)
    (he : errands[k]? = some errand)
    (hrun : (Service.ofErrands config registry size errands).run? allowed es = some t)
    (hc : t.courses[k]? = some c) : errand.EchoesAt config registry (es.countP (·.isOf k)) c := by
  have hechoes := Service.run?_counts_course (n := 0)
    (I := fun n _ c => errand.EchoesAt config registry n c) ?_ (fun h _ _ => h) rfl (getElem?_ofErrands he) rfl hrun hc
  · rw [Nat.zero_add] at hechoes
    exact hechoes
  · intro n u e c c' q h ha hc hs
    rw [Errand.EchoesAt, Function.iterate_succ_apply', Course.mute_step (hlaw u c e hc ha) hs]
    exact Course.next_mute_congr hstays h

theorem Errand.EchoesAt.delivered (h : errand.EchoesAt config registry n c) :
    c.delivered.map Message.mute =
      ((Course.next config errand.peer)^[n] (errand.course config registry).bare).delivered.map Message.mute :=
  congrArg Course.delivered h

theorem Errand.EchoesAt.outcome? (h : errand.EchoesAt config registry n c) :
    c.phase.outcome? =
      ((Course.next config errand.peer)^[n] (errand.course config registry).bare).phase.outcome? := by
  have hphase := congrArg (fun c => c.phase.outcome?) h
  simpa only [Course.mute, Phase.outcome?_mute, Course.bare_outcome?] using hphase

/-- After more steps there are the same messages and perhaps more; after its return there are no more. -/
theorem Errand.EchoesAt.le (h : errand.EchoesAt config registry n c) (h' : errand.EchoesAt config registry m c')
    (hle : n ≤ m) : c.delivered.map Message.mute <+: c'.delivered.map Message.mute ∧
      ∀ o, c.phase = .returned o →
        c.delivered.map Message.mute = c'.delivered.map Message.mute ∧ c'.phase.outcome? = some o := by
  rw [h.delivered, h'.delivered, h'.outcome?]
  refine ⟨(Course.delivered_iterate hle _).map _, fun o ho => ?_⟩
  have hreturned := h.outcome?
  rw [ho] at hreturned
  have hphase := Phase.outcome?_eq_some.mp hreturned.symm
  rw [Course.iterate_returned hle hphase, hphase]
  exact ⟨rfl, rfl⟩

/-- A request that has returned has as many messages, under the same indices, as it ever has. -/
theorem Errand.EchoesAt.of_returned (h : errand.EchoesAt config registry n c)
    (h' : errand.EchoesAt config registry m c') {o' : JobOutcome} (ho' : c'.phase = .returned o') :
    c.delivered.map Message.mute <+: c'.delivered.map Message.mute ∧
      ∀ o, c.phase = .returned o → c.delivered.map Message.mute = c'.delivered.map Message.mute ∧ o = o' := by
  rcases Nat.le_total n m with hle | hle
  · refine ⟨(h.le h' hle).1, fun o ho => ?_⟩
    obtain ⟨hdelivered, houtcome⟩ := (h.le h' hle).2 o ho
    rw [ho'] at houtcome
    exact ⟨hdelivered, (Option.some.inj houtcome).symm⟩
  · obtain ⟨hdelivered, houtcome⟩ := (h'.le h hle).2 o' ho'
    refine ⟨hdelivered ▸ List.prefix_rfl, fun o ho => ?_⟩
    rw [ho] at houtcome
    exact ⟨hdelivered.symm, Option.some.inj houtcome⟩

end Echoes
end FrameStream
