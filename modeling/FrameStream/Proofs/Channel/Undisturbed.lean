import Mathlib.Tactic.IntervalCases
import FrameStream.Proofs.Channel.Alone
import FrameStream.Proofs.Channel.Bystander
import FrameStream.Proofs.Channel.Replies

/-!
# A job is not disturbed by what is refused

A job streams on a channel that stays open and is served, and its resource and its processor depend on nothing else.
Then it stands, moment by moment, where its request stands by itself after so many steps, and it gets to every one of
them: a message that waits for room among refusals does not wait for ever. So what the job says, and how it ends, is
what the request says by itself, whatever else arrives on the channel while the job holds the slot.
-/

namespace FrameStream

theorem Phase.moves_bare (p : Phase) : p.bare.moves = p.moves := by
  cases p <;> rfl

theorem Phase.answered_ne {p : Phase} {m : Message} (h : p.message? = some m) (delivered : Bool) :
    p.answered delivered ≠ p := by
  cases p <;> cases delivered <;> simp_all [answered, message?, Dispatch.ending]

namespace Timeline

/-- A job that is to move is not held up for ever. -/
def Works (σ : Timeline) (k : Nat) : Prop :=
  ∀ t, (∀ u, t ≤ u → ∃ j : ChannelJob, (σ.docket u).server.jobs[k]? = some j ∧ j.phase.moves = true) →
    ∃ u move j, t ≤ u ∧ σ.event u = some (.moved k move) ∧ (σ.docket u).server.jobs[k]? = some j ∧
      move.suits j.phase = true

/-- The job `k` streams for the letter `l`, which asks for `r`, on a channel that stays open and is served. Its resource
opens as `source` tells. -/
structure Streams (σ : Timeline) (r : Request) (source : String → Except StreamError Resource) (k : Nat) (l : Letter) :
    Prop where
  started : ∃ t text, (σ.docket t).origins[k]? = some l ∧ (σ.docket t).letter? l = some (.request text) ∧
    Request.parse text = .ok r
  serves : σ.Serves l.connection
  stays : ∀ t, l ∈ (σ.docket t).origins → (σ.docket t).server.book.closed l.connection = false
  obeys : ∀ t e, σ.event t = some e → (σ.docket t).Obeys source k e
  works : σ.Works k

/-- At some moment the job `k` has said so much in answer to the letter `l`, and has ended so, if it has. -/
def Reaches (σ : Timeline) (k : Nat) (l : Letter) (said : List Message) (o : Option JobOutcome) : Prop :=
  ∃ t j, (σ.docket t).server.jobs[k]? = some j ∧ (σ.docket t).heard l = said ∧ j.phase.outcome? = o

/-- The job for the letter `l` stands where the request stands by itself. -/
def StandsAt (σ : Timeline) (k : Nat) (l : Letter) (t : Nat) (c : Course) : Prop :=
  (σ.docket t).origins[k]? = some l ∧ ∃ j, (σ.docket t).server.jobs[k]? = some j ∧ (σ.docket t).InStep l j c

variable {σ : Timeline} {config : ServiceConfig} {registry : Registry} {depth k t u : Nat} {l : Letter} {r : Request}
  {source : String → Except StreamError Resource} {c : Course} {j : ChannelJob} {m : Message}

theorem Streams.open_at (hs : σ.Streams r source k l) (hl : (σ.docket t).origins[k]? = some l) :
    (σ.docket t).server.book.closed l.connection = false := hs.stays t (List.mem_of_getElem? hl)

theorem Runs.origin (h : σ.Runs config registry depth) (hl : (σ.docket t).origins[k]? = some l) (hu : t ≤ u) :
    (σ.docket u).origins[k]? = some l := (h.extends hu).origin hl

theorem Streams.staysOpen (hs : σ.Streams r source k l) (h : σ.Runs config registry depth)
    (hl : (σ.docket t).origins[k]? = some l) : σ.StaysOpen l.connection t := fun _ hu =>
  hs.open_at (h.origin hl hu)

/-- What becomes of a job in one moment. -/
theorem Runs.job_advances (h : σ.Runs config registry depth) (hl : (σ.docket t).origins[k]? = some l)
    (hj : (σ.docket t).server.jobs[k]? = some j) :
    ∃ e j', (σ.docket (t + 1)).server.jobs[k]? = some j' ∧ (σ.docket t).Advances (σ.docket (t + 1)) e k l j j' := by
  cases he : σ.event t with
  | none =>
    rw [h.idle t he]
    exact ⟨.pinged, j, hj, .same rfl⟩
  | some e =>
    obtain ⟨j', hj', hadvances⟩ := (h.sound t).advances (h.step t e he) hl hj
    exact ⟨e, j', hj', hadvances⟩

theorem Streams.turn (hs : σ.Streams r source k l) (h : σ.Runs config registry depth) (hc : c.source = source)
    (hat : σ.StandsAt k l t c) : σ.StandsAt k l (t + 1) c ∨ σ.StandsAt k l (t + 1) (c.next config .steady) := by
  obtain ⟨hl, j, hj, hin⟩ := hat
  have hl' := h.origin hl (Nat.le_succ t)
  cases he : σ.event t with
  | none =>
    rw [StandsAt, h.idle t he]
    exact .inl ⟨hl, j, hj, hin⟩
  | some e =>
    have hstands := (h.sound t).answered.job k j l hj hl
    obtain ⟨j', hj', hadvances⟩ := (h.sound t).advances (h.step t e he) hl hj
    rcases hadvances.in_step hin hj (h.sound t).answered.setting.1 hstands.channel (hs.open_at hl)
      (hc ▸ hs.obeys t e he) with hsame | hnext
    · exact .inl ⟨hl', j', hj', hsame⟩
    · exact .inr ⟨hl', j', hj', hnext⟩

/-- The job starts where its request starts. -/
theorem Streams.begins (hs : σ.Streams r source k l) (h : σ.Runs config registry depth) :
    ∃ t, σ.StandsAt k l t (r.alone config registry source 0) ∧
      ∀ u, u < t → ((σ.docket u).server.jobs[k]?).isSome = false := by
  obtain ⟨t₁, text, hl₁, hletter₁, hparse⟩ := hs.started
  obtain ⟨j₁, hj₁, -⟩ := (h.sound t₁).answered.exists_job (h.sound t₁).wired hl₁
  have hexists : ∃ t, ((σ.docket t).server.jobs[k]?).isSome = true := ⟨t₁, by rw [hj₁]; rfl⟩
  have hfirst : ∀ u, u < Nat.find hexists → ((σ.docket u).server.jobs[k]?).isSome = false := fun u hu =>
    Bool.eq_false_iff.mpr (Nat.find_min hexists hu)
  refine ⟨Nat.find hexists, ?_, hfirst⟩
  have hle : Nat.find hexists ≤ t₁ := Nat.find_min' hexists (by rw [hj₁]; rfl)
  obtain ⟨j, hj⟩ := Option.isSome_iff_exists.mp (Nat.find_spec hexists)
  generalize Nat.find hexists = t at hfirst hle hj
  obtain ⟨l', hl⟩ := (h.sound t).wired.exists_origin hj
  obtain rfl : l' = l := Option.some.inj ((h.origin hl hle).symm.trans hl₁)
  cases t with
  | zero =>
    rw [h.start] at hj
    cases hj
  | succ t =>
    have hnone := hfirst t (Nat.lt_succ_self t)
    cases he : σ.event t with
    | none =>
      rw [h.idle t he] at hj
      rw [hj] at hnone
      cases hnone
    | some e =>
      have hstep := h.step t e he
      have hsound := h.sound t
      rcases hsound.job_before hstep hl hj with ⟨j₀, -, hj₀, -⟩ | hstarts
      · rw [hj₀] at hnone
        cases hnone
      · obtain ⟨text', r', hletter, hparse', hphase⟩ := hstarts.phase
        obtain rfl := (h.extends (Nat.le_trans (Nat.le_succ t) hle)).request_eq hletter hletter₁ hparse' hparse
        rw [hsound.answered.setting.1, hsound.answered.setting.2] at hphase
        refine ⟨hl, j, hj, ⟨?_, ?_⟩⟩
        · rw [hphase]
          rfl
        · rw [Docket.heard_of_said (hstarts.said hstep), hsound.silent_of_next hstarts.letter]
          rfl

/-- At every moment the job stands where its request stands by itself. -/
theorem Streams.stands_alone (hs : σ.Streams r source k l) (h : σ.Runs config registry depth)
    (hj : (σ.docket t).server.jobs[k]? = some j) : ∃ m, σ.StandsAt k l t (r.alone config registry source m) := by
  obtain ⟨t₀, hbegins, hnone⟩ := hs.begins h
  have hle : t₀ ≤ t := Nat.le_of_not_lt fun hlt => by
    have habsent := hnone t hlt
    rw [hj] at habsent
    cases habsent
  clear hj
  induction t, hle using Nat.le_induction with
  | base => exact ⟨0, hbegins⟩
  | succ t hle ih =>
    obtain ⟨m, hm⟩ := ih
    rcases hs.turn h (Request.source_alone m) hm with hsame | hnext
    · exact ⟨m, hsame⟩
    · exact ⟨m + 1, by rw [Request.alone_succ]; exact hnext⟩

/-! ## The job goes on -/

/-- A job that has something to say keeps it, its place in line, and what it gave back, until it gets on. -/
theorem Streams.waiting_turn (hs : σ.Streams r source k l) (h : σ.Runs config registry depth)
    (hat : σ.StandsAt k l t c) (hstuck : ¬ σ.StandsAt k l (t + 1) (c.next config .steady))
    (hm : c.phase.message? = some m) (hj : (σ.docket t).server.jobs[k]? = some j) :
    ∃ j', (σ.docket (t + 1)).server.jobs[k]? = some j' ∧ j'.phase = j.phase ∧
      ((j'.ticket? = j.ticket? ∧ (j.released = true → j'.released = true)) ∨
        (j.ticket? = none ∧ j'.ticket? ≠ none)) := by
  obtain ⟨hl, i, hi, hin⟩ := hat
  obtain rfl : i = j := Option.some.inj (hi.symm.trans hj)
  have hmessage : i.phase.message? = some m := by rw [← Phase.message?_bare, ← hin.phase, hm]
  obtain ⟨e, j', hj', hadvances⟩ := h.job_advances hl hj
  refine ⟨j', hj', ?_⟩
  cases hadvances with
  | stays home phase ticket kept gave heard => exact ⟨phase, .inl ⟨ticket, kept⟩⟩
  | moved move event after heard =>
    subst after
    exact ⟨Docket.JobMove.phase_of_message hmessage, .inl ⟨rfl, id⟩⟩
  | waits m' message before last after heard =>
    subst after
    exact ⟨rfl, .inr ⟨before, nofun⟩⟩
  | said m' message last opened after said =>
    exact absurd ⟨h.origin hl (Nat.le_succ t), j', hj', after ▸ hin.next_said message said⟩ hstuck
  | lost m' message last gone after heard =>
    rw [hs.open_at hl] at gone
    cases gone

/-- A job that does not get on does not wait: it would keep its place in line for ever. -/
theorem Streams.not_waiting (hs : σ.Streams r source k l) (h : σ.Runs config registry depth)
    (hat : ∀ u, t ≤ u → σ.StandsAt k l u c) (hstuck : ∀ u, t ≤ u → ¬ σ.StandsAt k l u (c.next config .steady))
    (hm : c.phase.message? = some m) (hu : t ≤ u) (hj : (σ.docket u).server.jobs[k]? = some j) :
    j.ticket? = none := by
  cases hticket : j.ticket? with
  | none => rfl
  | some x =>
    have hstays : ∀ v, u ≤ v → ∃ j, (σ.docket v).server.jobs[k]? = some j ∧ j.ticket? = some x := by
      intro v hv
      induction v, hv using Nat.le_induction with
      | base => exact ⟨j, hj, hticket⟩
      | succ v hv ih =>
        have hv' := Nat.le_trans hu hv
        obtain ⟨j, hj, hticket⟩ := ih
        obtain ⟨j', hj', -, ⟨hsame, -⟩ | ⟨hnone, -⟩⟩ := hs.waiting_turn h (hat v hv')
          (hstuck _ (Nat.le_succ_of_le hv')) hm hj
        · exact ⟨j', hj', hsame.trans hticket⟩
        · rw [hticket] at hnone
          cases hnone
    have hopen := hs.staysOpen h (hat u hu).1
    refine absurd (fun v hv => ?_) (h.not_waiting_forever hs.serves hopen (x := x))
    obtain ⟨j, hj, hticket⟩ := hstays v hv
    have hl := (hat v (Nat.le_trans hu hv)).1
    obtain ⟨m, -, hw⟩ := ((h.sound v).answered.job k j l hj hl).waits x hticket
    exact mem_tickets (h.sound v).mirrored hw (outbound_eq_some (hopen v hv)).1

/-- A request that does not get on stands where it stands. -/
theorem Streams.stuck (hs : σ.Streams r source k l) (h : σ.Runs config registry depth) (hc : c.source = source)
    (hat : σ.StandsAt k l t c) (hstuck : ∀ u, t ≤ u → ¬ σ.StandsAt k l u (c.next config .steady)) (hu : t ≤ u) :
    σ.StandsAt k l u c := by
  induction u, hu using Nat.le_induction with
  | base => exact hat
  | succ u hu ih => exact (hs.turn h hc ih).resolve_right (hstuck _ (Nat.le_succ_of_le hu))

/-- What a job has to say it says at some moment. -/
theorem Streams.speaks (hs : σ.Streams r source k l) (h : σ.Runs config registry depth)
    (hat : ∀ u, t ≤ u → σ.StandsAt k l u c) (hm : c.phase.message? = some m) :
    ∃ u, t ≤ u ∧ σ.StandsAt k l u (c.next config .steady) := by
  by_contra hnever
  have hstuck : ∀ u, t ≤ u → ¬ σ.StandsAt k l u (c.next config .steady) := fun u hu hnext => hnever ⟨u, hu, hnext⟩
  have hfair : σ.Fair (.sent k) := by
    obtain ⟨hl, j, hj, -⟩ := hat t (Nat.le_refl t)
    exact hs.serves.sent t k j hj ((h.sound t).answered.job k j l hj hl).channel
  -- It sends again and again; each time it can only give back its slot.
  have hsends : ∀ u, t ≤ u → ∃ v j j', u ≤ v ∧ (σ.docket v).server.jobs[k]? = some j ∧
      (σ.docket (v + 1)).server.jobs[k]? = some j' ∧ j.released = false ∧ j'.released = true := by
    intro u hu
    obtain ⟨v, hv, he⟩ := hfair u fun v hv => by
      have hv' := Nat.le_trans hu hv
      obtain ⟨-, j, hj, hin⟩ := hat v hv'
      rw [Docket.isSome_step?]
      exact ChannelServer.isSome_sent hj (hs.not_waiting h hat hstuck hm hv' hj)
        (by rw [← Phase.message?_bare, ← hin.phase, hm])
    have hv' := Nat.le_trans hu hv
    obtain ⟨-, j, hj, hin⟩ := hat v hv'
    obtain ⟨j', hj', hphase, -⟩ := hs.waiting_turn h (hat v hv') (hstuck _ (Nat.le_succ_of_le hv')) hm hj
    have hmessage : j.phase.message? = some m := by rw [← Phase.message?_bare, ← hin.phase, hm]
    rcases h.job_of_sent he hj hj' with ⟨hheld, hreleased⟩ | ⟨delivered, hanswered⟩ | hwaits
    · exact ⟨v, j, j', hv, hj, hj', hheld, hreleased⟩
    · exact absurd (hanswered.symm.trans hphase) (Phase.answered_ne hmessage delivered)
    · exact absurd (hs.not_waiting h hat hstuck hm (Nat.le_succ_of_le hv') hj') hwaits
  obtain ⟨v, j, j', hv, hj, hj', -, hreleased⟩ := hsends t (Nat.le_refl t)
  have hstays : ∀ w, v + 1 ≤ w → ∃ i, (σ.docket w).server.jobs[k]? = some i ∧ i.released = true := by
    intro w hw
    induction w, hw using Nat.le_induction with
    | base => exact ⟨j', hj', hreleased⟩
    | succ w hw ih =>
      have hw' : t ≤ w := Nat.le_trans (Nat.le_succ_of_le hv) hw
      obtain ⟨i, hi, hreleased⟩ := ih
      obtain ⟨i', hi', -, ⟨-, hkept⟩ | ⟨-, hwaits⟩⟩ := hs.waiting_turn h (hat w hw')
        (hstuck _ (Nat.le_succ_of_le hw')) hm hi
      · exact ⟨i', hi', hkept hreleased⟩
      · exact absurd (hs.not_waiting h hat hstuck hm (Nat.le_succ_of_le hw') hi') hwaits
  obtain ⟨w, i, i', hw, hi, -, hheld, -⟩ := hsends (v + 1) (Nat.le_succ_of_le hv)
  obtain ⟨p, hp, hreleased⟩ := hstays w hw
  obtain rfl : p = i := Option.some.inj (hp.symm.trans hi)
  rw [hheld] at hreleased
  cases hreleased

/-- A job that is to move moves at some moment. -/
theorem Streams.moves (hs : σ.Streams r source k l) (h : σ.Runs config registry depth) (hc : c.source = source)
    (hat : ∀ u, t ≤ u → σ.StandsAt k l u c) (hmoves : c.phase.moves = true) :
    ∃ u, t ≤ u ∧ σ.StandsAt k l u (c.next config .steady) := by
  obtain ⟨u, move, j, hu, he, hj, hsuits⟩ := hs.works t fun u hu => by
    obtain ⟨-, j, hj, hin⟩ := hat u hu
    exact ⟨j, hj, by rw [← Phase.moves_bare, ← hin.phase, hmoves]⟩
  obtain ⟨hl, i, hi, hin⟩ := hat u hu
  obtain rfl : i = j := Option.some.inj (hi.symm.trans hj)
  have hsound := h.sound u
  have hchannel := (hsound.answered.job k i l hj hl).channel
  obtain ⟨hphase, hdelivered⟩ := hin.next_moved hj hsound.answered.setting.1 (hchannel ▸ hs.open_at hl)
    (hc ▸ hs.obeys u _ he) hsuits
  obtain ⟨s, hstep, hnext⟩ := Docket.step?_eq_some (h.step u _ he)
  obtain ⟨j', hj', rfl⟩ := ChannelServer.step?_moved hstep
  obtain rfl : j' = i := Option.some.inj (hj'.symm.trans hj)
  have hmoved : (σ.docket (u + 1)).server.jobs[k]? =
      some { j' with phase := move.phase (σ.docket u).server j' } := by
    rw [hnext]
    exact List.getElem?_set_self (List.getElem?_eq_some_iff.mp hj).1
  refine ⟨u + 1, Nat.le_succ_of_le hu, h.origin hl (Nat.le_succ u), _, hmoved, hphase, ?_⟩
  rw [hdelivered, hin.heard, hnext]
  rfl

theorem Streams.goes_on (hs : σ.Streams r source k l) (h : σ.Runs config registry depth) (hc : c.source = source)
    (hat : σ.StandsAt k l t c) : ∃ u, t ≤ u ∧ σ.StandsAt k l u (c.next config .steady) := by
  by_contra hnever
  have hstuck : ∀ u, t ≤ u → ¬ σ.StandsAt k l u (c.next config .steady) := fun u hu hnext => hnever ⟨u, hu, hnext⟩
  have hstays : ∀ u, t ≤ u → σ.StandsAt k l u c := fun u hu => hs.stuck h hc hat hstuck hu
  rcases c.phase.cases with hmoves | ⟨m, hm⟩ | ⟨o, ho⟩
  · exact hnever (hs.moves h hc hstays hmoves)
  · exact hnever (hs.speaks h hstays hm)
  · exact hstuck t (Nat.le_refl t) ((Course.next_returned ho).symm ▸ hat)

/-- A job gets wherever its request gets by itself. -/
theorem Streams.reaches_alone (hs : σ.Streams r source k l) (h : σ.Runs config registry depth) :
    ∀ m, ∃ t, σ.StandsAt k l t (r.alone config registry source m)
  | 0 => by
    obtain ⟨t, ht, -⟩ := hs.begins h
    exact ⟨t, ht⟩
  | m + 1 => by
    obtain ⟨t, ht⟩ := hs.reaches_alone h m
    obtain ⟨u, -, hu⟩ := hs.goes_on h (Request.source_alone m) ht
    exact ⟨u, by rw [Request.alone_succ]; exact hu⟩

/-- What a job says, and how it ends, is what its request says by itself, and how that ends. -/
theorem Streams.reaches_iff (hs : σ.Streams r source k l) (h : σ.Runs config registry depth) {said : List Message}
    {o : Option JobOutcome} : σ.Reaches k l said o ↔ ∃ m, (r.alone config registry source m).delivered = said ∧
      (r.alone config registry source m).phase.outcome? = o := by
  refine ⟨fun ⟨t, j, hj, hsaid, ho⟩ => ?_, fun ⟨m, hsaid, ho⟩ => ?_⟩
  · obtain ⟨m, -, i, hi, hin⟩ := hs.stands_alone h hj
    obtain rfl : i = j := Option.some.inj (hi.symm.trans hj)
    exact ⟨m, hin.heard.trans hsaid, by rw [hin.phase, Phase.outcome?_bare, ho]⟩
  · obtain ⟨t, -, j, hj, hin⟩ := hs.reaches_alone h m
    exact ⟨t, j, hj, hin.heard.symm.trans hsaid, by rw [← Phase.outcome?_bare, ← hin.phase, ho]⟩

/-! ## Timelines that stop -/

/-- A channel that is open in the end was open from the moment on in which something was taken on it. -/
theorem Runs.open_before (h : σ.Runs config registry depth) (hl : l.place < (σ.docket t).taken l.connection)
    (hu : t ≤ u) (hopen : (σ.docket u).server.book.closed l.connection = false) :
    (σ.docket t).server.book.closed l.connection = false := by
  induction u, hu using Nat.le_induction with
  | base => exact hopen
  | succ u hu ih =>
    refine ih (Bool.eq_false_iff.mpr fun hclosed => ?_)
    cases he : σ.event u with
    | none =>
      rw [h.idle u he, hclosed] at hopen
      cases hopen
    | some e =>
      have hn := (h.sound u).wired.connected (Nat.lt_of_lt_of_le hl ((h.extends hu).taken _))
      rw [Docket.closed_step (h.sound u).wired (h.step u e he) hn hclosed] at hopen
      cases hopen

/-- A run in which a job streams to its end. -/
theorem streams_stopping {es : List ServerEvent} {resource : Resource}
    (hend : ∃ d j text, (Docket.start config registry depth).run? es = some d ∧ d.atRest l.connection = true ∧
      d.server.book.closed l.connection = false ∧ d.origins[k]? = some l ∧ d.letter? l = some (.request text) ∧
      Request.parse text = .ok r ∧ d.server.jobs[k]? = some j ∧ j.phase.moves = false)
    (hopened : ∀ result, .moved k (.opened result) ∈ es → result = .ok resource)
    (hended : ∀ t < es.length, ∀ outcome, es[t]? = some (.moved k (.ended outcome)) → ∃ i f u,
      ((stopping (Docket.start config registry depth) es).docket t).server.jobs[k]? = some i ∧
      i.phase = .awaiting f u ∧ outcome = f.processor.process ⟨u.index, (resource.outcomeAt u.index).frame!⟩) :
    (stopping (Docket.start config registry depth) es).Streams r (fun _ => .ok resource) k l := by
  obtain ⟨d, j, text, hes, hrest, hopen, hl, hletter, hparse, hj, hreturned⟩ := hend
  have hruns := runs_stopping hes
  have hlast : ∀ t, (stopping (Docket.start config registry depth) es).docket (max t es.length) = d := fun t =>
    docket_stopping hes (Nat.le_max_right _ _)
  refine ⟨⟨es.length, text, ?_, ?_, hparse⟩, serves_stopping hes hrest, fun t hmem => ?_, fun t e he => ⟨?_, ?_⟩, ?_⟩
  · rw [docket_stopping hes (Nat.le_refl _)]
    exact hl
  · rw [docket_stopping hes (Nat.le_refl _)]
    exact hletter
  · have hsound := hruns.sound t
    refine hruns.open_before (hsound.answered.taken_of_mem hsound.wired hmem) (Nat.le_max_left t es.length) ?_
    rw [hlast]
    exact hopen
  · rintro i job processor result - - rfl
    exact hopened result (List.mem_of_getElem? he)
  · rintro i f u outcome hi hphase rfl
    obtain ⟨i', f', u', hi', hphase', houtcome⟩ := hended t (List.getElem?_eq_some_iff.mp he).1 outcome he
    rw [hi] at hi'
    cases hi'
    rw [hphase] at hphase'
    cases hphase'
    exact houtcome
  · intro t hmoves
    obtain ⟨i, hi, hmoving⟩ := hmoves _ (Nat.le_max_left t es.length)
    rw [hlast, hj] at hi
    cases hi
    rw [hreturned] at hmoving
    cases hmoving

end Timeline

open Docket

/-- Refused requests do not disturb the job that streams. While a job has not given back the slot of an open channel it
holds it, no job is started for a letter that comes after its own, and the client hears of such a letter at most that
it is declined; a job gives back the slot only when nothing is left for it to do but to say its last message. If the
channel stays open and is served, then what the job says and how it ends is the same whatever else arrives: the same in
any two timelines in which a job streams for the same request. -/
theorem refusals_do_not_disturb (config : ServiceConfig) (registry : Registry) (depth : Nat) :
    (∀ (es : List ServerEvent) (d : Docket) (k : Nat) (j : ChannelJob) (l : Letter),
      (start config registry depth).run? es = some d → d.server.jobs[k]? = some j → d.origins[k]? = some l →
      (j.released = true → j.phase.finishing = true) ∧
      (j.released = false → d.server.book.closed l.connection = false →
        (∃ key, d.server.book.holder? j.conn = some ⟨j.id, key⟩) ∧
        ∀ l', l'.connection = l.connection → l.place < l'.place → d.TurnedAway l')) ∧
    (∀ (depth' : Nat) (σ τ : Timeline) (r : Request) (source : String → Except StreamError Resource) (i k : Nat)
      (l l' : Letter), σ.Runs config registry depth → τ.Runs config registry depth' → σ.Streams r source i l →
      τ.Streams r source k l' → ∀ said o, σ.Reaches i l said o ↔ τ.Reaches k l' said o) := by
  refine ⟨fun es d k j l hes hj hl => ?_, fun depth' σ τ r source i k l l' hσ hτ hsσ hsτ said o => ?_⟩
  · have hstart := orderly_start config registry depth
    have horderly := orderly_run hstart hes
    have horder := inOrder_run hstart.sound List.Pairwise.nil hes
    exact ⟨(horderly.settled k j hj).finishing, fun hheld hopen => horderly.holds_slot horder hj hl hopen hheld⟩
  · rw [hsσ.reaches_iff hσ, hsτ.reaches_iff hτ]

/-- A video of one frame. -/
def still : Resource := { outcomes := [.frame ⟨1, 1, [0, 0, 0]⟩] }

/-- What a job does that streams a still. -/
def streamStill : List ServerEvent := [
  .moved 0 (.opened (.ok still)), .moved 0 .looked, .moved 0 (.read (.ofSize 1)), .moved 0 .looked,
  .moved 0 (.ended (Echo.process ⟨0, ⟨1, 1, [0, 0, 0]⟩⟩)), .sent 0, .moved 0 .looked, .moved 0 (.read (.ofSize 1)),
  .moved 0 .looked, .retired 0, .forwarded 0, .written 0, .forwarded 0, .written 0]

def stillRequest : Inbound := .request (Bytes.ofText "\x7b\"key\":\"a\",\"resource\":\"v\"\x7d")

/-- A request by itself. -/
def undisturbed : List ServerEvent :=
  [.accepted "c", .arrived 0 stillRequest, .taken 0, .sent 0] ++ streamStill

/-- The same request, and while its job holds the slot, something that cannot be read and the request once more. -/
def disturbed : List ServerEvent :=
  [.accepted "c", .arrived 0 stillRequest, .taken 0, .sent 0, .arrived 0 (.request (Bytes.ofText "x")), .taken 0,
    .refused 0, .arrived 0 stillRequest, .taken 0, .refused 0] ++ streamStill ++
    [.forwarded 0, .written 0, .forwarded 0, .written 0]

def stillConfig : ServiceConfig := { window := 1, defaultModel := "echo" }

theorem streams_undisturbed : (Timeline.stopping (start stillConfig Registry.builtins 4) undisturbed).Streams
    { key := some "a", resource := some "v" } (fun _ => .ok still) 0 ⟨0, 0⟩ := by
  refine Timeline.streams_stopping ⟨_, _, _, rfl, rfl, rfl, rfl, rfl, rfl, rfl, rfl⟩
    (fun result hmem => by simpa [undisturbed, streamStill] using hmem) fun t ht outcome he => ?_
  have ht' : t < 18 := ht
  interval_cases t <;> simp [undisturbed, streamStill] at he
  exact ⟨_, _, _, rfl, rfl, he.symm⟩

theorem streams_disturbed : (Timeline.stopping (start stillConfig Registry.builtins 4) disturbed).Streams
    { key := some "a", resource := some "v" } (fun _ => .ok still) 0 ⟨0, 0⟩ := by
  refine Timeline.streams_stopping ⟨_, _, _, rfl, rfl, rfl, rfl, rfl, rfl, rfl, rfl⟩
    (fun result hmem => by simpa [disturbed, streamStill] using hmem) fun t ht outcome he => ?_
  have ht' : t < 28 := ht
  interval_cases t <;> simp [disturbed, streamStill] at he
  exact ⟨_, _, _, rfl, rfl, he.symm⟩

/-- The request that comes twice is turned away the second time, and the job for the first says what it says without
the second. -/
theorem refusals_do_not_disturb_still :
    (∃ (d : Docket) (j : ChannelJob), (start stillConfig Registry.builtins 4).run? (disturbed.take 10) = some d ∧
      d.server.jobs[0]? = some j ∧ (∃ key, d.server.book.holder? j.conn = some ⟨j.id, key⟩) ∧
      d.TurnedAway ⟨0, 2⟩ ∧ ∃ reason, d.heard ⟨0, 2⟩ = [.rejected (some "a") reason]) ∧
    ∃ payload, (Timeline.stopping (start stillConfig Registry.builtins 4) undisturbed).Reaches 0 ⟨0, 0⟩
      [.accepted "a", .result "a" 0 payload] (some (.finished .completed 1)) := by
  obtain ⟨hsafe, hsame⟩ := refusals_do_not_disturb stillConfig Registry.builtins 4
  constructor
  · obtain ⟨d, j, hes, hj, hl, hopen, hheld, hreason⟩ : ∃ d j,
        (start stillConfig Registry.builtins 4).run? (disturbed.take 10) = some d ∧ d.server.jobs[0]? = some j ∧
          d.origins[0]? = some ⟨0, 0⟩ ∧ d.server.book.closed 0 = false ∧ j.released = false ∧
          ∃ reason, d.heard ⟨0, 2⟩ = [.rejected (some "a") reason] :=
      ⟨_, _, rfl, rfl, rfl, rfl, rfl, _, rfl⟩
    obtain ⟨hholds, haway⟩ := (hsafe _ d 0 j ⟨0, 0⟩ hes hj hl).2 hheld hopen
    exact ⟨d, j, hes, hj, hholds, haway ⟨0, 2⟩ rfl (by decide), hreason⟩
  · obtain ⟨d, d', j, payload, hes, hes', hj, hsaid, ho⟩ : ∃ d d' j payload,
        (start stillConfig Registry.builtins 4).run? disturbed = some d ∧
          (start stillConfig Registry.builtins 4).run? undisturbed = some d' ∧ d.server.jobs[0]? = some j ∧
          d.heard ⟨0, 0⟩ = [.accepted "a", .result "a" 0 payload] ∧
          j.phase.outcome? = some (.finished .completed 1) := ⟨_, _, _, _, rfl, rfl, rfl, rfl, rfl⟩
    refine ⟨payload, (hsame 4 _ _ _ _ 0 0 ⟨0, 0⟩ ⟨0, 0⟩ (Timeline.runs_stopping hes) (Timeline.runs_stopping hes')
      streams_disturbed streams_undisturbed _ _).mp ⟨disturbed.length, j, ?_, ?_, ho⟩⟩
    · rw [Timeline.docket_stopping hes (Nat.le_refl _)]
      exact hj
    · rw [Timeline.docket_stopping hes (Nat.le_refl _)]
      exact hsaid

end FrameStream
