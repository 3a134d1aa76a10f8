import FrameStream.Processor.Echo
import FrameStream.Proofs.Service.Along

/-!
# Reads are coupled to delivery

A dispatch reads ahead of its client by the window and no further. When it is about to send the message of
unit `i` it has made `i + W` reads, or all reads of its plan if these are fewer; at no moment has it begun
more than `W` reads beyond the messages delivered. Only reads that were begun count, whatever came of them,
and the read that finds the end is one of them.
-/

namespace FrameStream.Plan

theorem Says.index {p : Plan} {closed : Bool} {i : Nat} {m : Message} (h : p.Says closed i m) :
    m.index? = some i := by
  rcases h with rfl | ⟨-, rfl⟩
  · unfold message
    cases p.processor.process (p.unit i) <;> rfl
  · rfl

theorem Told.countP {p : Plan} {closed : Bool} {n : Nat} {sent : List Message} (h : p.Told closed n sent) :
    sent.countP (·.index?.isSome) = n := by
  rw [← h.length_eq, List.countP_eq_length]
  intro m hm
  obtain ⟨i, hi⟩ := List.mem_iff_getElem?.mp hm
  simp [(h.said i m hi).index]

section

variable {p : Plan} {pool : Pool} {reads hand : Nat} {places : List Nat} {sent : List Message} {d : Dispatch}

/-- While units are in flight the reads are exactly as far ahead as the window allows. -/
theorem Tracks.reads_eq (t : p.Tracks pool reads places sent d hand)
    (full : d.exhausted = false → d.produced = d.emitted + p.room) :
    (reads : ℕ∞) = min ((d.emitted + p.room : ℕ) : ℕ∞) p.readCount := by
  have hreading := t.reading
  cases hx : d.exhausted with
  | false =>
    rw [hx] at hreading
    rw [hreading.eq_of_going.1, ← full hx, min_eq_left (natCast_le_readCount t.within)]
  | true =>
    rw [hx] at hreading
    rw [(hreading.finished t.within).2, min_eq_right]
    exact_mod_cast t.reads_le

variable {lead : List Message} {c : Course}

theorem Tracks.results_eq (t : p.Tracks pool reads places sent d hand)
    (hlead : lead.countP (·.index?.isSome) = 0) (hdelivered : c.delivered = lead ++ sent) :
    c.results = d.emitted := by
  rw [Course.results, hdelivered, List.countP_append, hlead, t.told.countP, Nat.zero_add]

/-- In every phase the dispatch tracks its plan, and counts as emitted what its client has got. -/
theorem Along.exists_tracks (h : p.Along lead pool c) (hlead : lead.countP (·.index?.isSome) = 0) :
    ∃ d hand sent, p.Tracks pool c.reads c.places sent d hand ∧ c.results = d.emitted := by
  cases h with
  | refilling d sent phase tracks delivered => exact ⟨d, 0, sent, tracks, tracks.results_eq hlead delivered⟩
  | reading d sent phase tracks delivered => exact ⟨d, 0, sent, tracks, tracks.results_eq hlead delivered⟩
  | awaiting d f sent phase tracks delivered => exact ⟨d, 1, sent, tracks, tracks.results_eq hlead delivered⟩
  | sending d m sent phase tracks delivered => exact ⟨d, 1, sent, tracks, tracks.results_eq hlead delivered⟩
  | failing d e sent phase tracks delivered => exact ⟨d, 0, sent, tracks, tracks.results_eq hlead delivered⟩
  | completed d sent phase tracks delivered => exact ⟨d, 0, sent, tracks, tracks.results_eq hlead delivered⟩
  | failed d e sent phase tracks delivered =>
    refine ⟨d, 0, sent, tracks, ?_⟩
    rw [Course.results, delivered, List.countP_append, List.countP_append, hlead, tracks.told.countP]
    simp [Message.index?]
  | closed d hand sent phase tracks delivered => exact ⟨d, hand, sent, tracks, tracks.results_eq hlead delivered⟩

theorem Along.counts (h : p.Along lead pool c) (hlead : lead.countP (·.index?.isSome) = 0) :
    c.readsBegun ≤ c.results + p.room ∧ (c.readsBegun : ℕ∞) ≤ p.readCount ∧
      c.places.length ≤ c.results + p.room := by
  obtain ⟨d, hand, sent, t, hresults⟩ := h.exists_tracks hlead
  cases hp : c.phase with
  | reading d' =>
    cases h with
    | reading d sent phase tracks delivered lost going below space =>
      have hreading := tracks.reading
      rw [going] at hreading
      have hbegun : c.readsBegun = d.produced + 1 := by
        simp [Course.readsBegun, phase, hreading.eq_of_going.1]
      rw [hbegun, tracks.results_eq hlead delivered, tracks.placed]
      exact ⟨space, succ_le_readCount tracks.within below, tracks.room⟩
    | _ => simp_all [Dispatch.ending]
  | _ =>
    have hbegun : c.readsBegun = c.reads := by simp [Course.readsBegun, hp]
    rw [hbegun, hresults, t.placed]
    exact ⟨t.reads_le, t.reading.le_readCount t.within, t.room⟩

/-- No more units are told than the plan has. -/
theorem Along.results_le (h : p.Along lead pool c) (hlead : lead.countP (·.index?.isSome) = 0) :
    (c.results : ℕ∞) ≤ p.units := by
  obtain ⟨d, hand, sent, t, hresults⟩ := h.exists_tracks hlead
  have out := t.out
  exact (Nat.cast_le.mpr (by omega)).trans t.within

theorem Along.at_sending (h : p.Along lead pool c) {d : Dispatch} {m : Message} (hphase : c.phase = .sending d m) :
    ∃ sent, p.Tracks pool c.reads c.places sent d 1 ∧ c.delivered = lead ++ sent ∧
      p.Says pool.closed d.emitted m ∧ (d.exhausted = false → d.produced = d.emitted + p.room) := by
  cases h with
  | sending d' m' sent phase tracks delivered lost said full =>
    rw [hphase] at phase
    cases phase
    exact ⟨sent, tracks, delivered, said, full⟩
  | _ => simp_all [Dispatch.ending]

/-- A dispatch that ended by itself has made all reads of its plan. -/
theorem Along.reads_of_end (h : p.Along lead pool c) {n : Nat}
    (hphase : c.phase = .returned (.finished .completed n) ∨ c.phase = .returned (.finished .resourceFailed n)) :
    (c.readsBegun : ℕ∞) = p.readCount := by
  have hbegun : c.readsBegun = c.reads := by
    rcases hphase with hp | hp <;> simp [Course.readsBegun, hp]
  rw [hbegun]
  cases h with
  | completed d sent phase tracks delivered lost all exhausted error =>
    exact (tracks.at_end exhausted all).2.2.symm
  | failed d e sent phase tracks delivered lost all exhausted error =>
    exact (tracks.at_end exhausted all).2.2.symm
  | _ => simp_all [Dispatch.ending]

end

/-- A dispatch that begins follows its plan at every later moment. -/
theorem along_of_run {p : Plan} {source : String → Except StreamError Resource}
    {allowed : Service → ServiceEvent → Bool} {s t : Service} {k : Nat} {es : List ServiceEvent} {c : Course}
    (hlaunch : s.courses[k]? = some (p.launch source)) (hrun : s.run? allowed es = some t)
    (hc : t.courses[k]? = some c) : p.Along [] t.pool c :=
  Service.run?_keeps_course (fun h _ hs => h.step hs) (fun h hm => h.moved hm) hlaunch
    (along_start p s.pool rfl rfl rfl rfl rfl) hrun hc

/-- Reads follow delivery: exact when a unit message is about to be sent, bounded at every moment, and
complete once the dispatch has ended by itself. -/
theorem reads_follow_delivery {p : Plan} {source : String → Except StreamError Resource}
    {allowed : Service → ServiceEvent → Bool} {s t : Service} {k : Nat} {es : List ServiceEvent} {c : Course}
    (hlaunch : s.courses[k]? = some (p.launch source)) (hrun : s.run? allowed es = some t)
    (hc : t.courses[k]? = some c) :
    (∀ d m i, c.phase = .sending d m → m.index? = some i →
      i = c.results ∧ (c.readsBegun : ℕ∞) = min ((i + p.room : ℕ) : ℕ∞) p.readCount ∧
        d.producer.resource.reads = p.resource.reads + c.readsBegun) ∧
    c.readsBegun ≤ c.results + p.room ∧
    (c.readsBegun : ℕ∞) ≤ p.readCount ∧
    c.places.length ≤ c.results + p.room ∧
    ∀ n, c.phase = .returned (.finished .completed n) ∨ c.phase = .returned (.finished .resourceFailed n) →
      (c.readsBegun : ℕ∞) = p.readCount := by
  have halong := along_of_run hlaunch hrun hc
  obtain ⟨hbegun, hcount, hpulled⟩ := halong.counts rfl
  refine ⟨?_, hbegun, hcount, hpulled, fun n hphase => halong.reads_of_end hphase⟩
  intro d m i hphase hi
  obtain ⟨sent, tracks, delivered, said, full⟩ := halong.at_sending hphase
  have hindex : i = d.emitted := by
    rw [said.index] at hi
    exact (Option.some.inj hi).symm
  have hresults : c.results = d.emitted := by
    rw [Course.results, delivered, List.nil_append, tracks.told.countP]
  have hreads : c.readsBegun = c.reads := by simp [Course.readsBegun, hphase]
  refine ⟨by rw [hindex, hresults], ?_, ?_⟩
  · rw [hreads, hindex]
    exact tracks.reads_eq full
  · rw [tracks.resource, hreads]
    rfl

/-- Two frames in a window of two, echoed. -/
def brief : Plan where
  job := { key := "k", resource := "v", requested := none, model := "echo" }
  processor := Echo.processor
  window := 2
  resource := { outcomes := [.frame default, .frame default] }
  limit := none

/-- Up to the message of the first unit. -/
def briefEvents : List ServiceEvent :=
  [.course 0 (.looked false), .course 0 .read, .pool (.started 0), .course 0 (.looked false), .course 0 .read,
    .course 0 (.looked false), .pool (.finished 0), .course 0 .ended]

/-- Both frames are read before the first message is sent, and the end is not. -/
theorem reads_follow_delivery_brief :
    ∃ t c d m, Service.run? (fun _ _ => true) (brief.alone {} 1) briefEvents = some t ∧
      t.courses[0]? = some c ∧ c.phase = .sending d m ∧ m.index? = some 0 ∧ c.readsBegun = 2 ∧
      (c.readsBegun : ℕ∞) = min ((0 + 2 : ℕ) : ℕ∞) brief.readCount := by
  obtain ⟨t, c, d, m, hrun, hc, hphase, hindex, htwo⟩ : ∃ t c d m,
      Service.run? (fun _ _ => true) (brief.alone {} 1) briefEvents = some t ∧ t.courses[0]? = some c ∧
        c.phase = .sending d m ∧ m.index? = some 0 ∧ c.readsBegun = 2 := ⟨_, _, _, _, rfl, rfl, rfl, rfl, rfl⟩
  have hreads := ((reads_follow_delivery rfl hrun hc).1 d m 0 hphase hindex).2.1
  exact ⟨t, c, d, m, hrun, hc, hphase, hindex, htwo, hreads⟩

end FrameStream.Plan
