import FrameStream.Proofs.Places
import FrameStream.Proofs.Pool.Draining

/-!
# Slots that are taken in turn

A pool in which units take slots in the order of submission splits its units once and for all: the first `n` have had a
slot, and run or ended as their processors decided; every other waits, or was turned away by the closed pool
(`InTurn`). Only a start moves the split, by one, and a closed pool starts nothing.
-/

namespace FrameStream.Pool

variable {p q : Pool} {place n : Nat} {t : Task} {o : UnitOutcome}

/-- The first `n` units, and no others, have had a slot. -/
structure InTurn (n : Nat) (p : Pool) : Prop where
  within : n ≤ p.tasks.length
  taken : ∀ i t, p.tasks[i]? = some t → i < n →
    t.stage = .running ∨ t.stage = .ended (t.processor.process t.unit)
  left : ∀ i t, p.tasks[i]? = some t → n ≤ i →
    t.stage = .waiting ∨ (p.closed = true ∧ t.stage = .ended (refusal t.unit))

theorem inTurn_ofSize (size : Nat) : (ofSize size).InTurn 0 :=
  ⟨Nat.zero_le _, fun _ _ h => (nomatch h), fun _ _ h => (nomatch h)⟩

theorem InTurn.submit (h : p.InTurn n) (processor : Processor) (u : WorkUnit) : (p.submit processor u).InTurn n := by
  refine ⟨Nat.le_trans h.within (by simp [Pool.submit]), fun i t ht hi => ?_, fun i t ht hi => ?_⟩
  · rcases getElem?_concat_eq_some ht with hold | ⟨rfl, -⟩
    · exact h.taken i t hold hi
    · exact absurd h.within (Nat.not_le.mpr hi)
  · rcases getElem?_concat_eq_some ht with hold | ⟨-, rfl⟩
    · exact h.left i t hold hi
    · exact .inl rfl

/-- One unit gets another stage, which fits the split at `m`; all others are on the same side as before. -/
theorem InTurn.restage (h : p.InTurn n) (ht : p.tasks[place]? = some t) {s : Stage} {m : Nat}
    (htasks : q.tasks = (p.setStage place s).tasks) (hclosed : q.closed = p.closed) (hm : m ≤ p.tasks.length)
    (hside : ∀ i, i ≠ place → (i < m ↔ i < n))
    (hnew : (place < m ∧ (s = .running ∨ s = .ended (t.processor.process t.unit))) ∨
      (m ≤ place ∧ p.closed = true ∧ s = .ended (refusal t.unit))) : q.InTurn m := by
  have hcases : ∀ i t', q.tasks[i]? = some t' →
      (i = place ∧ t' = { t with stage := s }) ∨ (i ≠ place ∧ p.tasks[i]? = some t') := by
    intro i t' ht'
    rw [htasks] at ht'
    by_cases hi : i = place
    · subst hi
      rw [setStage_tasks_self ht] at ht'
      exact .inl ⟨rfl, (Option.some.inj ht').symm⟩
    · rw [setStage_tasks_ne p (Ne.symm hi)] at ht'
      exact .inr ⟨hi, ht'⟩
  refine ⟨?_, fun i t' ht' hi => ?_, fun i t' ht' hi => ?_⟩
  · rw [htasks]
    simpa [setStage] using hm
  · rcases hcases i t' ht' with ⟨rfl, rfl⟩ | ⟨hne, hold⟩
    · rcases hnew with ⟨-, hstage⟩ | ⟨hle, -⟩
      · exact hstage
      · exact absurd hi (Nat.not_lt.mpr hle)
    · exact h.taken i t' hold ((hside i hne).mp hi)
  · rw [hclosed]
    rcases hcases i t' ht' with ⟨rfl, rfl⟩ | ⟨hne, hold⟩
    · rcases hnew with ⟨hlt, -⟩ | ⟨-, hrefused⟩
      · exact absurd hlt (Nat.not_lt.mpr hi)
      · exact .inr hrefused
    · exact h.left i t' hold (Nat.not_lt.mp (mt (hside i hne).mpr (Nat.not_lt.mpr hi)))

theorem InTurn.le_of_waiting (h : p.InTurn n) (ht : p.tasks[place]? = some t) (hw : t.stage = .waiting) :
    n ≤ place := by
  by_contra hlt
  rcases h.taken place t ht (Nat.lt_of_not_le hlt) with hstage | hstage
  · cases hw.symm.trans hstage
  · cases hw.symm.trans hstage

theorem InTurn.lt_of_running (h : p.InTurn n) (ht : p.tasks[place]? = some t) (hr : t.stage = .running) :
    place < n := by
  by_contra hge
  rcases h.left place t ht (Nat.not_lt.mp hge) with hstage | ⟨-, hstage⟩
  · cases hr.symm.trans hstage
  · cases hr.symm.trans hstage

/-- The unit that has waited longest is the first that has had no slot yet. -/
theorem InTurn.start (h : p.InTurn n) (hfirst : p.firstWaiting? = some place)
    (hs : p.step? (.started place) = some q) : place = n ∧ q.InTurn (n + 1) := by
  obtain ⟨t, ht, hwaiting, hopen, -, rfl⟩ := startAt?_eq_some.mp hs
  have hlt := (List.getElem?_eq_some_iff.mp ht).1
  obtain rfl : place = n := by
    by_contra hne
    -- The unit at the split waits too, for nobody was turned away.
    have hsplit : n < place := Nat.lt_of_le_of_ne (h.le_of_waiting ht hwaiting) (Ne.symm hne)
    obtain ⟨_, -, hbefore⟩ := List.findIdx?_eq_some_iff_getElem.mp hfirst
    refine hbefore n hsplit ?_
    rcases h.left n _ (List.getElem?_eq_getElem (Nat.lt_trans hsplit hlt)) (Nat.le_refl n) with hwait | ⟨hclosed, -⟩
    · exact (isWaiting_iff _).mpr hwait
    · cases hopen.symm.trans hclosed
  exact ⟨rfl, h.restage ht rfl rfl hlt (fun i hi => by omega) (.inl ⟨Nat.lt_succ_self _, .inl rfl⟩)⟩

/-- Every other move leaves the split where it is. -/
theorem InTurn.step (h : p.InTurn n) {e : PoolEvent} (he : ∀ place, e ≠ .started place)
    (hs : p.step? e = some q) : q.InTurn n := by
  cases e with
  | started place => exact absurd rfl (he place)
  | finished place =>
    obtain ⟨t, ht, hrunning, rfl⟩ := finish?_eq_some.mp hs
    exact h.restage ht rfl rfl h.within (fun _ _ => Iff.rfl) (.inl ⟨h.lt_of_running ht hrunning, .inr rfl⟩)
  | refused place =>
    obtain ⟨t, ht, hwaiting, hclosed, rfl⟩ := refuseAt?_eq_some.mp hs
    exact h.restage ht rfl rfl h.within (fun _ _ => Iff.rfl) (.inr ⟨h.le_of_waiting ht hwaiting, hclosed, rfl⟩)
  | closed =>
    simp only [step?] at hs
    split at hs
    · cases hs
    · cases hs
      exact ⟨h.within, h.taken, fun i t ht hi => (h.left i t ht hi).imp id fun h => ⟨rfl, h.2⟩⟩

/-- The place of a unit decides how it ends. -/
theorem InTurn.outcome (h : p.InTurn n) {processor : Processor} {u : WorkUnit} (hu : p.Holds place processor u)
    (ho : p.outcome? place = some o) : o = if place < n then processor.process u else refusal u := by
  obtain ⟨s, hs, -⟩ := hu
  have hstage : s.outcome? = some o := by
    simpa only [outcome?, hs] using ho
  by_cases hlt : place < n
  · rw [if_pos hlt]
    rcases h.taken place _ hs hlt with hrunning | hended
    · obtain rfl : s = .running := hrunning
      cases hstage
    · obtain rfl : s = .ended (processor.process u) := hended
      exact (Option.some.inj hstage).symm
  · rw [if_neg hlt]
    rcases h.left place _ hs (Nat.not_lt.mp hlt) with hwaiting | ⟨-, hended⟩
    · obtain rfl : s = .waiting := hwaiting
      cases hstage
    · obtain rfl : s = .ended (refusal u) := hended
      exact (Option.some.inj hstage).symm

/-- A pool in which a unit has not ended can move in turn. -/
theorem exists_step_inTurn (hc : p.Conserved) (ht : p.tasks[place]? = some t) (hn : t.stage.outcome? = none) :
    ∃ e q, e ≠ .closed ∧ (∀ i, e = .started i → p.firstWaiting? = some i) ∧ p.step? e = some q := by
  obtain ⟨e, q, he, hq⟩ := exists_step hc ht hn
  cases e with
  | started i =>
    obtain ⟨u, hu, hwaiting, hopen, hfree, -⟩ := startAt?_eq_some.mp hq
    obtain ⟨first, hfirst⟩ := exists_firstWaiting? (List.mem_of_getElem? hu) hwaiting
    obtain ⟨v, hv, hlongest⟩ := firstWaiting?_waiting hfirst
    refine ⟨.started first, _, by simp, ?_, startAt?_eq_some.mpr ⟨v, hv, hlongest, hopen, hfree, rfl⟩⟩
    rintro i ⟨⟩
    exact hfirst
  | _ => exact ⟨_, q, he, fun _ hi => (nomatch hi), hq⟩

/-! ## Outcomes stay -/

theorem outcome?_of_restaged {i : Nat} {s : Stage} (ho : p.outcome? place = some o) (ht : p.tasks[i]? = some t)
    (hgoing : t.stage.outcome? = none) (htasks : q.tasks = (p.setStage i s).tasks) : q.outcome? place = some o := by
  have hne : i ≠ place := by
    rintro rfl
    simp only [outcome?, ht, hgoing] at ho
    cases ho
  rwa [outcome?, htasks, setStage_tasks_ne p hne]

/-- Whatever becomes of the pool, the outcome of a unit that has ended stays. -/
theorem Moved.outcome? (hm : p.Moved q) (ho : p.outcome? place = some o) : q.outcome? place = some o := by
  cases hm with
  | unchanged => exact ho
  | submitted processor u =>
    cases ht : p.tasks[place]? with
    | none =>
      simp only [Pool.outcome?, ht] at ho
      cases ho
    | some t =>
      rw [Pool.outcome?, submit, List.getElem?_append_left (List.getElem?_eq_some_iff.mp ht).1]
      exact ho
  | stepped e hs =>
    cases e with
    | started i =>
      obtain ⟨t, ht, hwaiting, -, -, rfl⟩ := startAt?_eq_some.mp hs
      exact outcome?_of_restaged ho ht (by rw [hwaiting]; rfl) rfl
    | finished i =>
      obtain ⟨t, ht, hrunning, rfl⟩ := finish?_eq_some.mp hs
      exact outcome?_of_restaged ho ht (by rw [hrunning]; rfl) rfl
    | refused i =>
      obtain ⟨t, ht, hwaiting, -, rfl⟩ := refuseAt?_eq_some.mp hs
      exact outcome?_of_restaged ho ht (by rw [hwaiting]; rfl) rfl
    | closed =>
      simp only [step?] at hs
      split at hs
      · cases hs
      · cases hs
        exact ho

end FrameStream.Pool
