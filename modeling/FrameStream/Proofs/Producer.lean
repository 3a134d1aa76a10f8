import FrameStream.Proofs.Service.Plan

/-!
# The law of a producer

Whatever its resource gives and however often it is called, a producer gives the frames of the resource in their
order, numbered from zero, until the limit is reached or a read gives no frame. From then on it gives nothing and
reads nothing. `Producer.Stands` says where a producer can stand after so many calls; one call leads from one such
place to the next.
-/

namespace FrameStream

namespace NextUnit

/-- What a call gives that makes read `n`. -/
def ofRead (n : SequenceIndex) : ReadOutcome → NextUnit
  | .frame f => .unit ⟨n, f⟩
  | .ended => .ended
  | .failed e => .failed e

def unit? : NextUnit → Option WorkUnit
  | .unit u => some u
  | _ => none

def error? : NextUnit → Option StreamError
  | .failed e => some e
  | _ => none

theorem isSome_unit?_ofRead (n : SequenceIndex) (o : ReadOutcome) : (ofRead n o).unit?.isSome = o.isFrame := by
  cases o <;> rfl

end NextUnit

namespace Producer

/-- A producer that was not yet called. -/
def ofResource (resource : Resource) (limit : Option Nat) : Producer := { resource, limit }

/-- A producer after `n` calls. -/
def after (p : Producer) : Nat → Producer
  | 0 => p
  | n + 1 => (p.after n).next.2

/-- What call `n` gives, counted from zero. -/
def answer (p : Producer) (n : Nat) : NextUnit := (p.after n).next.1

/-- The units that the first `n` calls give, in their order. -/
def units (p : Producer) (n : Nat) : List WorkUnit := (List.range n).filterMap fun i => (p.answer i).unit?

/-- The errors that the first `n` calls give, in their order. -/
def errors (p : Producer) (n : Nat) : List StreamError := (List.range n).filterMap fun i => (p.answer i).error?

/-- A producer comes to unit `n`: all reads before gave frames, and the limit is not reached. -/
structure ComesTo (resource : Resource) (limit : Option Nat) (n : Nat) : Prop where
  frames : ∀ i < n, (resource.outcomeAt i).isFrame = true
  room : ∀ l ∈ limit, n < l

/-- Where a producer can stand after `n` calls. -/
inductive Stands (resource : Resource) (limit : Option Nat) (n : Nat) : Producer → Prop
  /-- Every call gave a unit. -/
  | going (frames : ∀ i < n, (resource.outcomeAt i).isFrame = true) (within : ∀ l ∈ limit, n ≤ l) :
    Stands resource limit n { resource := resource.after n, limit, produced := n }
  /-- The limit was reached after `m` units. -/
  | full {m : Nat} (early : m < n) (frames : ∀ i < m, (resource.outcomeAt i).isFrame = true)
      (reached : limit = some m) :
    Stands resource limit n { resource := resource.after m, limit, produced := m, finished := true }
  /-- Read `m` gave no frame. -/
  | broken {m : Nat} (early : m < n) (comes : ComesTo resource limit m)
      (last : (resource.outcomeAt m).isFrame = false) :
    Stands resource limit n { resource := resource.after (m + 1), limit, produced := m, finished := true }

variable {resource : Resource} {limit : Option Nat} {n m : Nat} {p : Producer}

/-! ## One call -/

theorem next_finished (h : p.finished = true) : p.next = (.ended, p) := by
  have hstopped : p.stopped = true := by rw [stopped, h, Bool.true_or]
  rw [next, if_pos hstopped, ← h]

theorem atLimit_eq_false (hroom : ∀ l ∈ p.limit, p.produced < l) : p.atLimit = false := by
  unfold atLimit
  cases hl : p.limit with
  | none => rfl
  | some l =>
    have hlt := hroom l hl
    simpa using hlt

/-- A limit that was kept and leaves no room is reached. -/
theorem atLimit_eq_true (hwithin : ∀ l ∈ p.limit, p.produced ≤ l) (hfull : ¬ ∀ l ∈ p.limit, p.produced < l) :
    p.limit = some p.produced ∧ p.atLimit = true := by
  simp only [not_forall] at hfull
  obtain ⟨l, hl, hge⟩ := hfull
  obtain rfl : p.produced = l := Nat.le_antisymm (hwithin l hl) (Nat.le_of_not_lt hge)
  refine ⟨hl, ?_⟩
  rw [atLimit, show p.limit = some p.produced from hl]
  exact decide_eq_true (Nat.le_refl _)

/-- A call before the limit gives what the read gives. -/
theorem next_going (comes : ComesTo resource limit n) :
    let p : Producer := { resource := resource.after n, limit, produced := n }
    Stands resource limit (n + 1) p.next.2 ∧ p.next.1 = .ofRead n (resource.outcomeAt n) ∧
      p.next.2.produced = if (resource.outcomeAt n).isFrame then n + 1 else n := by
  intro p
  have hgoing : ¬ p.stopped = true := by
    have hlimit : p.atLimit = false := atLimit_eq_false comes.room
    simp [stopped, hlimit, p]
  have hpeek : p.resource.peek = resource.outcomeAt n := resource.peek_after n
  have hadvance : p.resource.advance = resource.after (n + 1) := resource.advance_after n
  rw [next, if_neg hgoing, take, hpeek, hadvance]
  cases ho : resource.outcomeAt n with
  | frame f =>
    refine ⟨.going (fun i hi => ?_) fun l hl => comes.room l hl, rfl, rfl⟩
    rcases Nat.lt_succ_iff_lt_or_eq.mp hi with hlt | rfl
    · exact comes.frames i hlt
    · rw [ho]
      rfl
  | ended => exact ⟨.broken (Nat.lt_succ_self n) comes (by rw [ho]; rfl), rfl, rfl⟩
  | failed e => exact ⟨.broken (Nat.lt_succ_self n) comes (by rw [ho]; rfl), rfl, rfl⟩

/-- What a call gives and changes: what the next read gives, or nothing at all. -/
inductive Calls (resource : Resource) (limit : Option Nat) (n : Nat) (p : Producer) : Prop
  | read (comes : ComesTo resource limit n) (place : p.produced = n)
    (gives : p.next.1 = .ofRead n (resource.outcomeAt n))
    (produced : p.next.2.produced = if (resource.outcomeAt n).isFrame then n + 1 else n)
  | idle (stays : ¬ ComesTo resource limit n) (gives : p.next.1 = .ended) (produced : p.next.2.produced = p.produced)
    (resource : p.next.2.resource = p.resource)

theorem Stands.call (h : Stands resource limit n p) :
    Stands resource limit (n + 1) p.next.2 ∧ Calls resource limit n p := by
  cases h with
  | going frames within =>
    by_cases hroom : ∀ l ∈ limit, n < l
    · obtain ⟨hstands, hgives, hproduced⟩ := next_going ⟨frames, hroom⟩
      exact ⟨hstands, .read ⟨frames, hroom⟩ rfl hgives hproduced⟩
    · obtain ⟨hlimit, hat⟩ := atLimit_eq_true (p := { resource := resource.after n, limit, produced := n }) within hroom
      have hnext : ({ resource := resource.after n, limit, produced := n } : Producer).next =
          (.ended, { resource := resource.after n, limit, produced := n, finished := true }) := by
        rw [next, if_pos (by rw [stopped, hat, Bool.or_true])]
      rw [hnext]
      refine ⟨.full (Nat.lt_succ_self n) frames hlimit, ?_⟩
      exact .idle (fun hcomes => hroom hcomes.room) (by rw [hnext]) (by rw [hnext]) (by rw [hnext])
  | @full m early frames reached =>
    have hnext := next_finished (p := { resource := resource.after m, limit, produced := m, finished := true }) rfl
    rw [hnext]
    refine ⟨.full (Nat.lt_succ_of_lt early) frames reached, ?_⟩
    refine .idle (fun hcomes => ?_) (by rw [hnext]) (by rw [hnext]) (by rw [hnext])
    exact Nat.lt_asymm early (hcomes.room m reached)
  | @broken m early comes last =>
    have hnext :=
      next_finished (p := { resource := resource.after (m + 1), limit, produced := m, finished := true }) rfl
    rw [hnext]
    refine ⟨.broken (Nat.lt_succ_of_lt early) comes last, ?_⟩
    refine .idle (fun hcomes => ?_) (by rw [hnext]) (by rw [hnext]) (by rw [hnext])
    rw [hcomes.frames m early] at last
    cases last

/-! ## Any number of calls -/

theorem stands_after (resource : Resource) (limit : Option Nat) (n : Nat) :
    Stands resource limit n ((ofResource resource limit).after n) := by
  induction n with
  | zero => exact .going (fun i hi => nomatch hi) fun l _ => Nat.zero_le l
  | succ n ih => exact ih.call.1

theorem calls_after (resource : Resource) (limit : Option Nat) (n : Nat) :
    Calls resource limit n ((ofResource resource limit).after n) :=
  (stands_after resource limit n).call.2

theorem ComesTo.of_lt (h : ComesTo resource limit n) (hm : m < n) : ComesTo resource limit m :=
  ⟨fun i hi => h.frames i (Nat.lt_trans hi hm), fun l hl => Nat.lt_trans hm (h.room l hl)⟩

/-- A producer that gave no unit comes to none later. -/
theorem not_comesTo_of_no_unit (h : ((ofResource resource limit).answer m).unit? = none) (hn : m < n) :
    ¬ ComesTo resource limit n := by
  intro hcomes
  cases calls_after resource limit m with
  | read _ _ gives _ =>
    have hframe := hcomes.frames m hn
    rw [← NextUnit.isSome_unit?_ofRead m, ← gives] at hframe
    rw [answer] at h
    rw [h] at hframe
    cases hframe
  | idle stays => exact stays (hcomes.of_lt hn)

/-- A call at which the producer comes to no unit gives nothing and reads nothing. -/
theorem idle_of_not_comesTo (h : ¬ ComesTo resource limit n) :
    (ofResource resource limit).answer n = .ended ∧
      ((ofResource resource limit).after (n + 1)).resource = ((ofResource resource limit).after n).resource := by
  cases calls_after resource limit n with
  | read comes => exact absurd comes h
  | idle _ gives _ same => exact ⟨gives, same⟩

theorem filterMap_range_succ {α : Type} (f : Nat → Option α) (n : Nat) :
    (List.range (n + 1)).filterMap f = (List.range n).filterMap f ++ (f n).toList := by
  rw [List.range_succ, List.filterMap_append]
  cases h : f n <;> simp [h]

theorem units_succ (p : Producer) (n : Nat) : p.units (n + 1) = p.units n ++ (p.answer n).unit?.toList :=
  filterMap_range_succ _ n

/-- The units are the frames that were read, numbered from zero. -/
theorem units_eq (resource : Resource) (limit : Option Nat) (n : Nat) :
    (ofResource resource limit).units n = (List.range ((ofResource resource limit).after n).produced).map
      fun i => ⟨i, (resource.outcomeAt i).frame!⟩ := by
  induction n with
  | zero => rfl
  | succ n ih =>
    rw [units_succ, ih, answer, after]
    cases calls_after resource limit n with
    | read comes place gives produced =>
      rw [gives, produced, place]
      cases ho : resource.outcomeAt n with
      | frame f => simp [NextUnit.ofRead, NextUnit.unit?, ReadOutcome.isFrame, List.range_succ, ReadOutcome.frame!, ho]
      | ended => simp [NextUnit.ofRead, NextUnit.unit?, ReadOutcome.isFrame]
      | failed e => simp [NextUnit.ofRead, NextUnit.unit?, ReadOutcome.isFrame]
    | idle stays gives produced _ =>
      rw [gives, produced]
      exact List.append_nil _

theorem length_units (resource : Resource) (limit : Option Nat) (n : Nat) :
    ((ofResource resource limit).units n).length = ((ofResource resource limit).after n).produced := by
  rw [units_eq, List.length_map, List.length_range]

theorem Stands.produced_le (h : Stands resource limit n p) : ∀ l ∈ limit, p.produced ≤ l := by
  cases h with
  | going _ within => exact within
  | full _ _ reached =>
    intro l hl
    rw [reached] at hl
    cases hl
    exact Nat.le_refl _
  | broken _ comes _ => exact fun l hl => Nat.le_of_lt (comes.room l hl)

/-- The read that gives no frame is made before the limit, so it counts as well. -/
theorem Stands.reads_le (h : Stands resource limit n p) : ∀ l ∈ limit, p.resource.reads ≤ resource.reads + l := by
  cases h with
  | going _ within => exact fun l hl => Nat.add_le_add_left (within l hl) _
  | full _ _ reached =>
    intro l hl
    rw [reached] at hl
    cases hl
    exact Nat.le_refl _
  | broken _ comes _ => exact fun l hl => Nat.add_le_add_left (comes.room l hl) _

theorem Stands.isFrame_of_lt (h : Stands resource limit n p) :
    ∀ i < p.produced, (resource.outcomeAt i).isFrame = true := by
  cases h with
  | going frames _ => exact frames
  | full _ frames _ => exact frames
  | broken _ comes _ => exact comes.frames

/-- As long as reads give frames and the limit is not reached, every call gives a unit. -/
theorem Stands.lt_produced (h : Stands resource limit n p) (hm : m < n) (comes : ComesTo resource limit m)
    (hframe : (resource.outcomeAt m).isFrame = true) : m < p.produced := by
  cases h with
  | going _ _ => exact hm
  | full _ _ reached => exact comes.room _ reached
  | @broken k _ _ last =>
    refine Nat.lt_of_not_le fun hle => ?_
    have hframe' : (resource.outcomeAt k).isFrame = true := by
      rcases Nat.lt_or_eq_of_le hle with hlt | rfl
      · exact comes.frames k hlt
      · exact hframe
    rw [last] at hframe'
    cases hframe'

/-- An error is what the read gave to which the producer came. -/
theorem error?_answer_iff {e : StreamError} : ((ofResource resource limit).answer n).error? = some e ↔
    ComesTo resource limit n ∧ resource.outcomeAt n = .failed e := by
  rw [answer]
  cases calls_after resource limit n with
  | read comes _ gives _ =>
    rw [gives]
    cases ho : resource.outcomeAt n <;> simp [NextUnit.ofRead, NextUnit.error?, comes]
  | idle stays gives => simp [gives, NextUnit.error?, stays]

theorem mem_errors_iff {e : StreamError} : e ∈ (ofResource resource limit).errors n ↔
    ∃ i < n, ComesTo resource limit i ∧ resource.outcomeAt i = .failed e := by
  simp only [errors, List.mem_filterMap, List.mem_range, error?_answer_iff]

theorem errors_succ (p : Producer) (n : Nat) : p.errors (n + 1) = p.errors n ++ (p.answer n).error?.toList :=
  filterMap_range_succ _ n

/-- Once an error was given, the producer comes to no unit, so no call gives another. -/
theorem length_errors_le (resource : Resource) (limit : Option Nat) (n : Nat) :
    ((ofResource resource limit).errors n).length ≤ 1 := by
  induction n with
  | zero => exact Nat.zero_le 1
  | succ n ih =>
    rw [errors_succ, List.length_append]
    cases he : ((ofResource resource limit).answer n).error? with
    | none => simpa using ih
    | some e =>
      have hnone : (ofResource resource limit).errors n = [] := by
        refine List.eq_nil_iff_forall_not_mem.mpr fun x hx => ?_
        obtain ⟨i, hi, -, hfailed⟩ := mem_errors_iff.mp hx
        have hframe := (error?_answer_iff.mp he).1.frames i hi
        rw [hfailed] at hframe
        cases hframe
      simp [hnone]

/-! ## The law -/

/-- What `n` calls of a producer come to. -/
structure Accounts (resource : Resource) (limit : Option Nat) (n : Nat) (p : Producer) : Prop where
  /-- The units are numbered from zero without gaps, and unit `i` holds frame `i` as it was read. -/
  numbered : ∀ i u, (p.units n)[i]? = some u → u.index = i ∧ resource.outcomeAt i = .frame u.frame
  /-- No call keeps a frame back before the limit. -/
  complete : ∀ i < n, (∀ j ≤ i, (resource.outcomeAt j).isFrame = true) → (∀ l ∈ limit, i < l) → i < (p.units n).length
  counted : (p.after n).produced = (p.units n).length
  within : ∀ l ∈ limit, (p.after n).produced ≤ l
  one_error : (p.errors n).length ≤ 1
  /-- An error is the first outcome that is no frame, and the limit was not reached before it. -/
  first_failure : ∀ e, e ∈ p.errors n ↔ ∃ i < n, resource.outcomeAt i = .failed e ∧
    (∀ j < i, (resource.outcomeAt j).isFrame = true) ∧ ∀ l ∈ limit, i < l
  /-- After a call that gave no unit, every call gives the end and reads nothing. -/
  after_end : ∀ i, (p.answer i).unit? = none → ∀ j, i < j →
    p.answer j = .ended ∧ (p.after (j + 1)).resource = (p.after (i + 1)).resource
  reads_within : ∀ l ∈ limit, (p.after n).resource.reads ≤ resource.reads + l

/-- However often a producer is called, it numbers the frames of its resource until it stops for good. -/
theorem frames_numbered_until_over (resource : Resource) (limit : Option Nat) (n : Nat) :
    Accounts resource limit n (ofResource resource limit) where
  numbered i u hu := by
    have hi : i < ((ofResource resource limit).after n).produced := by
      rw [← length_units]
      exact (List.getElem?_eq_some_iff.mp hu).1
    have hframe := (stands_after resource limit n).isFrame_of_lt i hi
    rw [units_eq, List.getElem?_map, List.getElem?_range hi, Option.map_some, Option.some.injEq] at hu
    subst hu
    cases ho : resource.outcomeAt i with
    | frame f => exact ⟨rfl, rfl⟩
    | _ =>
      rw [ho] at hframe
      cases hframe
  complete i hi hframes hroom := by
    rw [length_units]
    exact (stands_after resource limit n).lt_produced hi ⟨fun j hj => hframes j (Nat.le_of_lt hj), hroom⟩
      (hframes i (Nat.le_refl i))
  counted := (length_units resource limit n).symm
  within := (stands_after resource limit n).produced_le
  one_error := length_errors_le resource limit n
  first_failure e := by
    rw [mem_errors_iff]
    constructor
    · rintro ⟨i, hi, comes, hfailed⟩
      exact ⟨i, hi, hfailed, comes.frames, comes.room⟩
    · rintro ⟨i, hi, hfailed, frames, room⟩
      exact ⟨i, hi, ⟨frames, room⟩, hfailed⟩
  after_end i hi j hj := by
    have hover : ∀ k, i < k → ¬ ComesTo resource limit k := fun k hk => not_comesTo_of_no_unit hi hk
    refine ⟨(idle_of_not_comesTo (hover j hj)).1, ?_⟩
    induction j, hj using Nat.le_induction with
    | base => exact (idle_of_not_comesTo (hover (i + 1) (Nat.lt_succ_self i))).2
    | succ j hj ih => exact (idle_of_not_comesTo (hover (j + 1) (Nat.lt_succ_of_lt hj))).2.trans ih
  reads_within := (stands_after resource limit n).reads_le

end Producer
end FrameStream
