import FrameStream.Proofs.Service.Hearing
import FrameStream.Proofs.Service.Muted
import FrameStream.Proofs.Service.Sequential

/-!
# A pool that is closed while jobs run

Units take slots in the order of submission, and at some moment, whichever, the pool is closed. Each request on a
channel that stays open ends as it does over a pool that stays open, with as many messages under the same indices.
There is one cut in its units: those before it had a slot and say what their processor made of them, those from it on
were turned away and say so (`closing_cuts_once`).
-/

namespace FrameStream

variable {config : ServiceConfig} {registry : Registry} {size k n : Nat} {errands : List Errand} {errand : Errand}
  {es : List ServiceEvent} {s t : Service} {pool q : Pool} {c c' : Course}

/-- The text for a unit of a pool that was closed. -/
def shutDown : String := "worker pool is shut down"

/-- The message as it is told when the units from `cut` on are turned away. -/
def Message.cutAt (cut : Nat) : Message → Message
  | .result key index data => if index < cut then .result key index data else .unitError key index shutDown
  | .unitError key index reason => .unitError key index (if index < cut then reason else shutDown)
  | m => m

/-- Channels answer by what they were given, units take slots in the order of submission, and the pool may be closed. -/
def closingLaw (errands : List Errand) (s : Service) : ServiceEvent → Bool
  | .course k e => lawOf errands s (.course k e)
  | .pool (.started place) => s.pool.firstWaiting? = some place
  | .pool _ => true

theorem governs_closingLaw (he : errands[k]? = some errand) : errand.peer.Governs (closingLaw errands) k :=
  fun _ _ e hc ha => (lawOf_course he hc e).symm.trans ha

/-! ## Messages -/

theorem Message.cutAt_of_index? {m : Message} {cut : Nat} (h : m.index? = none) : m.cutAt cut = m := by
  cases m with
  | result key index data => cases h
  | unitError key index reason => cases h
  | _ => rfl

theorem UnitOutcome.cutAt_message (key : String) (i cut : Nat) (o : UnitOutcome) :
    (o.message key i).cutAt cut = if i < cut then o.message key i else .unitError key i shutDown := by
  cases o <;> by_cases hi : i < cut <;> simp [UnitOutcome.message, Message.cutAt, hi]

/-! ## Slots -/

namespace ServiceEvent

def isStart : ServiceEvent → Bool
  | .pool (.started _) => true
  | _ => false

end ServiceEvent

/-- One step of a service whose units take slots in turn. -/
theorem Service.inTurn_step {e : ServiceEvent} (h : s.pool.InTurn n) (ha : closingLaw errands s e = true)
    (hs : s.step? e = some t) :
    (∃ place, e = .pool (.started place) ∧ place = n ∧ t.pool.InTurn (n + 1)) ∨
    (e.isStart = false ∧ t.pool.InTurn n) := by
  cases e with
  | course i e =>
    obtain ⟨c, c', pool, -, hstep, rfl⟩ := step?_course hs
    refine .inr ⟨rfl, ?_⟩
    rcases Course.step?_submits hstep with rfl | ⟨processor, u, rfl⟩
    · exact h
    · exact h.submit processor u
  | pool e =>
    obtain ⟨pool, hstep, rfl⟩ := step?_pool hs
    cases e with
    | started place =>
      obtain ⟨hplace, hnext⟩ := h.start (by simpa [closingLaw] using ha) hstep
      exact .inl ⟨place, rfl, hplace, hnext⟩
    | _ => exact .inr ⟨rfl, h.step (by simp) hstep⟩

/-- After any run the units that took a slot are the first ones. -/
theorem Service.inTurn_run : ∀ {es : List ServiceEvent} {s t : Service} {n : Nat}, s.pool.InTurn n →
    s.run? (closingLaw errands) es = some t → t.pool.InTurn (n + es.countP (·.isStart)) ∧
      ∀ place, .pool (.started place) ∈ es ↔ n ≤ place ∧ place < n + es.countP (·.isStart)
  | [], _, _, n, h, hrun => by
    cases hrun
    exact ⟨h, fun place => iff_of_false List.not_mem_nil (by simp)⟩
  | e :: es, s, t, n, h, hrun => by
    obtain ⟨u, ha, hs, hr⟩ := run?_cons hrun
    rcases inTurn_step h ha hs with ⟨first, rfl, rfl, hu⟩ | ⟨hother, hu⟩
    · obtain ⟨hturn, hstarts⟩ := inTurn_run hu hr
      have hcount : (ServiceEvent.pool (.started first) :: es).countP (·.isStart) = es.countP (·.isStart) + 1 :=
        List.countP_cons_of_pos rfl
      refine ⟨by rw [hcount, ← Nat.add_assoc, Nat.add_right_comm]; exact hturn, fun place => ?_⟩
      rw [List.mem_cons, hstarts, hcount]
      simp only [ServiceEvent.pool.injEq, PoolEvent.started.injEq]
      omega
    · obtain ⟨hturn, hstarts⟩ := inTurn_run hu hr
      have hcount : (e :: es).countP (·.isStart) = es.countP (·.isStart) :=
        List.countP_cons_of_neg (by simp [hother])
      refine ⟨hcount ▸ hturn, fun place => ?_⟩
      rw [List.mem_cons, hstarts, hcount]
      refine or_iff_right ?_
      rintro rfl
      cases hother

/-- A request that has not returned can be brought on, and slots be taken in turn. -/
theorem Service.exists_step_inTurn (he : errands[k]? = some errand) (hc : s.courses[k]? = some c)
    (hslots : s.pool.Conserved) (hplaces : ∀ d f, c.phase = .awaiting d f → f.place < s.pool.tasks.length)
    (hgoing : c.phase.outcome? = none) :
    ∃ e u, (e.isOf k = true ∨ e.isPool = true) ∧ e ≠ .pool .closed ∧ closingLaw errands s e = true ∧
      s.step? e = some u := by
  rcases c.exists_step s.config s.pool (errand.peer.takes c.delivered) (errand.peer.saysClosed c.delivered) hgoing
    with ⟨e, ha, hs⟩ | ⟨d, f, hp, ho⟩
  · obtain ⟨⟨c', q⟩, hs⟩ := Option.isSome_iff_exists.mp hs
    exact ⟨.course k e, _, .inl (by simp [ServiceEvent.isOf]), by simp, (lawOf_course he hc e).trans ha,
      step?_of_course hc hs⟩
  · have hlt := hplaces d f hp
    have hnone : s.pool.tasks[f.place].stage.outcome? = none := by
      simpa [Pool.outcome?, hlt] using ho
    obtain ⟨e, q, hopen, hfirst, hq⟩ :=
      Pool.exists_step_inTurn hslots (List.getElem?_eq_getElem hlt) hnone
    refine ⟨.pool e, _, .inr rfl, by simpa using hopen, ?_, step?_of_pool hq⟩
    cases e with
    | started place => simpa [closingLaw] using hfirst place rfl
    | _ => rfl

/-- Without closing the pool a request that has not returned gets to make its next step. -/
theorem Service.exists_own_run_inTurn (he : errands[k]? = some errand) (hc : s.courses[k]? = some c)
    (hslots : s.pool.Conserved) (hplaces : ∀ d f, c.phase = .awaiting d f → f.place < s.pool.tasks.length)
    (hgoing : c.phase.outcome? = none) :
    ∃ fs u c', s.run? (closingLaw errands) fs = some u ∧ .pool .closed ∉ fs ∧ fs.countP (·.isOf k) = 1 ∧
      u.courses[k]? = some c' := by
  -- By induction on the moves that are left to the pool.
  induction hn : 2 * s.pool.tasks.length + 1 - s.pool.effort using Nat.strongRecOn generalizing s with
  | ind n ih =>
    obtain ⟨e, u, hof, hopen, ha, hs⟩ := exists_step_inTurn he hc hslots hplaces hgoing
    have hrun := run?_single ha hs
    rcases step?_cases hc hs with ⟨e', c', rfl, -, hc'⟩ | ⟨hother, hc'⟩
    · exact ⟨[_], u, c', hrun, by simp, by simp [ServiceEvent.isOf], hc'⟩
    · cases e with
      | course i e => simp [hother, ServiceEvent.isPool] at hof
      | pool e =>
        obtain ⟨q, hq, rfl⟩ := step?_pool hs
        have hmore := Pool.effort_step hq
        have hle := q.effort_le
        have hlength := Pool.length_step hq
        obtain ⟨fs, v, c', hfs, hnone, hone, hv⟩ := ih (2 * q.tasks.length + 1 - q.effort) (by omega) hc'
          (hslots.step hq) (by simpa only [hlength] using hplaces) rfl
        refine ⟨[.pool e] ++ fs, v, c', run?_append hrun hfs, ?_, ?_, hv⟩
        · simpa using ⟨fun h => hopen (congrArg _ h.symm), hnone⟩
        · rw [List.countP_append, hone]
          rfl

/-! ## What the units say -/

/-- What a request has said rests on its plan and on the pool, whatever law the run is under. -/
theorem followed_of_run {allowed : Service → ServiceEvent → Bool} (he : errands[k]? = some errand)
    (hrun : (Service.ofErrands config registry size errands).run? allowed es = some t)
    (hc : t.courses[k]? = some c) :
    Handled errand.request config registry errand.source t.pool c ∧
      Followed errand.request config registry errand.source t.pool c := by
  have hkept := Service.run?_keeps_course
    (I := fun pool c => c.source = errand.source ∧ Handled errand.request config registry errand.source pool c ∧
      Followed errand.request config registry errand.source pool c)
    ?_ (fun h hm => ⟨h.1, h.2.1.moved hm, h.2.2.moved hm⟩) (getElem?_ofErrands he)
    ⟨rfl, handled_start _ rfl, .early rfl (by simp [Errand.course, Course.ofRequest])⟩ hrun hc
  · exact hkept.2
  · rintro u e c c' q ⟨hsource, handled, followed⟩ - hs
    rw [← hsource] at handled followed
    refine ⟨(Course.source_step hs).trans hsource, ?_, ?_⟩
    · rw [← hsource]
      exact handled.step hs
    · rw [← hsource]
      exact followed.step handled hs

section Said

variable {r : Request} {source : String → Except StreamError Resource} {m : Message} {i : Nat}

/-- Where slots are taken in turn, the place of a unit decides what is said of it. -/
theorem Followed.said_inTurn (h : Followed r config registry source pool c) (hturn : pool.InTurn n)
    (hm : m ∈ c.delivered) (hi : m.index? = some i) :
    ∃ p, Planned r config registry source p ∧
      m = if i < c.places.countP (· < n) then p.message i else .unitError p.job.key i shutDown := by
  obtain ⟨p, place, o, planned, hplace, hholds, ho, rfl⟩ := h.rests hm hi
  refine ⟨p, planned, ?_⟩
  rw [hturn.outcome hholds ho]
  simp only [lt_countP_iff_of_ascending h.ordered hplace]
  split <;> rfl

/-- Over an open pool every unit says what its processor made of it. -/
theorem Followed.said_open (h : Followed r config registry source pool c) (hopen : pool.closed = false)
    (hm : m ∈ c.delivered) (hi : m.index? = some i) : ∃ p, Planned r config registry source p ∧ m = p.message i := by
  obtain ⟨p, place, o, planned, -, hholds, ho, rfl⟩ := h.rests hm hi
  refine ⟨p, planned, ?_⟩
  rcases hholds.outcome ho with rfl | ⟨hclosed, -⟩
  · rfl
  · cases hopen.symm.trans hclosed

/-- Two messages of one request, over a pool that may be closed and over one that stays open, that differ at most in
what they say of a unit: the first is the second, cut. -/
theorem Followed.eq_cutAt (h : Followed r config registry source pool c) (hturn : pool.InTurn n)
    (h' : Followed r config registry source q c') (hopen : q.closed = false) {m' : Message} (hm : m ∈ c.delivered)
    (hm' : m' ∈ c'.delivered) (hmute : m.mute = m'.mute) : m = m'.cutAt (c.places.countP (· < n)) := by
  have hindex : m.index? = m'.index? := by
    rw [← m.index?_mute, hmute, m'.index?_mute]
  cases hi : m'.index? with
  | none =>
    rw [Message.cutAt_of_index? hi, ← Message.mute_of_index? hi, ← hmute,
      Message.mute_of_index? (hindex.trans hi)]
  | some i =>
    obtain ⟨p, planned, hsaid⟩ := h.said_inTurn hturn hm (hindex.trans hi)
    obtain ⟨p', planned', rfl⟩ := h'.said_open hopen hm' hi
    cases planned.unique planned'
    rw [hsaid, Plan.message, UnitOutcome.cutAt_message]

theorem Followed.prefix_cutAt (h : Followed r config registry source pool c) (hturn : pool.InTurn n)
    (h' : Followed r config registry source q c') (hopen : q.closed = false)
    (hmute : c.delivered.map Message.mute <+: c'.delivered.map Message.mute) :
    c.delivered <+: c'.delivered.map (Message.cutAt (c.places.countP (· < n))) :=
  prefix_map_of_prefix_map hmute fun _ hm _ hm' => h.eq_cutAt hturn h' hopen hm hm'

theorem Followed.delivered_eq_cutAt (h : Followed r config registry source pool c) (hturn : pool.InTurn n)
    (h' : Followed r config registry source q c') (hopen : q.closed = false)
    (hmute : c.delivered.map Message.mute = c'.delivered.map Message.mute) :
    c.delivered = c'.delivered.map (Message.cutAt (c.places.countP (· < n))) := by
  refine (h.prefix_cutAt hturn h' hopen (hmute ▸ List.prefix_rfl)).eq_of_length ?_
  simpa only [List.length_map] using congrArg List.length hmute

end Said

/-! ## The cut -/

/-- Some run over a pool that stays open brings request `k` there. -/
def Errand.ReachesOpen (config : ServiceConfig) (registry : Registry) (size : Nat) (errands : List Errand) (k : Nat)
    (c : Course) : Prop :=
  ∃ es t, (Service.ofErrands config registry size errands).run? (lawOf errands) es = some t ∧
    t.courses[k]? = some c

/-- Where request `k` stands after a run in which the pool may have been closed, as against runs in which it stays open:
the units from `cut` on get no slot. -/
structure Errand.CutOnce (errand : Errand) (config : ServiceConfig) (registry : Registry) (errands : List Errand)
    (k : Nat) (es : List ServiceEvent) (t : Service) (c : Course) (cut : Nat) : Prop where
  /-- The units before the cut have had a slot, and no others. -/
  slots : ∀ i place, c.places[i]? = some place → (i < cut ↔ .pool (.started place) ∈ es)
  /-- The messages of units have the indices from zero on. -/
  indices : c.delivered.filterMap Message.index? = List.range c.results
  /-- Before the cut they say what the processor made of the unit, and from it on that the pool is shut down. -/
  said : ∀ m ∈ c.delivered, ∀ i, m.index? = some i →
    ∃ p, Planned errand.request config registry errand.source p ∧
      m = if i < cut then p.message i else .unitError p.job.key i shutDown
  /-- Had the pool stayed open, the request could be where its other messages are the same, and its outcome, if any. -/
  mirrored : ∀ size, ∃ c', Errand.ReachesOpen config registry size errands k c' ∧
    c.delivered = c'.delivered.map (Message.cutAt cut) ∧ c.phase.outcome? = c'.phase.outcome?
  /-- Once it has returned, it has ended as it does whenever the pool stays open. -/
  returned : ∀ size c' o', Errand.ReachesOpen config registry size errands k c' → c'.phase = .returned o' →
    c.delivered <+: c'.delivered.map (Message.cutAt cut) ∧
    ∀ o, c.phase = .returned o → c.delivered = c'.delivered.map (Message.cutAt cut) ∧ o = o'
  /-- By then every unit that was submitted has its message. -/
  complete : ∀ o, c.phase = .returned o → c.results = c.places.length
  /-- Until then the request can be brought on. -/
  going : c.phase.outcome? = none → ∃ e u, (e.isOf k = true ∨ e.isPool = true) ∧ e ≠ .pool .closed ∧
    closingLaw errands t e = true ∧ t.step? e = some u
  /-- If it returns over a pool that stays open, it gets there here too. -/
  ends : ∀ size c' o', Errand.ReachesOpen config registry size errands k c' → c'.phase = .returned o' →
    ∃ fs u d, t.run? (closingLaw errands) fs = some u ∧ .pool .closed ∉ fs ∧ u.courses[k]? = some d ∧
      d.phase = .returned o'

/-- On a channel that stays open no run ends a request as closed. -/
theorem not_closed_of_run {allowed : Service → ServiceEvent → Bool} (hlaw : errand.peer.Governs allowed k)
    (hstays : errand.peer.Stays) (he : errands[k]? = some errand)
    (hrun : (Service.ofErrands config registry size errands).run? allowed es = some t)
    (hc : t.courses[k]? = some c) : ∀ n, c.phase ≠ .returned (.finished .channelClosed n) := by
  have hconfig : (Service.ofErrands config registry size errands).config = config := rfl
  refine Service.run?_counts_course (n := 0)
    (I := fun _ _ c => ∀ n, c.phase ≠ .returned (.finished .channelClosed n)) ?_ (fun h _ _ => h) hconfig
    (getElem?_ofErrands he) ?_ hrun hc
  · intro n u e c c' q _ ha hc hs
    have hanswers := hlaw u c e hc ha
    rw [(hstays _).1, (hstays _).2] at hanswers
    exact Course.not_closed_step hs hanswers
  · intro n
    rw [Errand.course, Course.ofRequest, Phase.start]
    split <;> simp

/-- If a request returns by itself, it can be brought to return over a pool that may have been closed. -/
theorem exists_return (he : errands[k]? = some errand) (hstays : errand.peer.Stays) {o : JobOutcome} (d : Nat)
    (hrun : (Service.ofErrands config registry size errands).run? (closingLaw errands) es = some t)
    (hc : t.courses[k]? = some c)
    (hreturned : ((Course.next config errand.peer)^[es.countP (·.isOf k) + d]
      (errand.course config registry).bare).phase = .returned o) :
    ∃ fs u c', t.run? (closingLaw errands) fs = some u ∧ .pool .closed ∉ fs ∧ u.courses[k]? = some c' ∧
      c'.phase = .returned o := by
  -- By induction on the steps of its own that the request has still to make.
  induction d generalizing es t c with
  | zero =>
    have houtcome := (echoesAt_of_run (governs_closingLaw he) hstays he hrun hc).outcome?
    rw [Nat.add_zero] at hreturned
    rw [hreturned] at houtcome
    exact ⟨[], t, c, rfl, List.not_mem_nil, hc, Phase.outcome?_eq_some.mp houtcome⟩
  | succ d ih =>
    have houtcome := (echoesAt_of_run (governs_closingLaw he) hstays he hrun hc).outcome?
    cases hgoing : c.phase.outcome? with
    | some o' =>
      rw [hgoing] at houtcome
      have hphase := Phase.outcome?_eq_some.mp houtcome.symm
      rw [Course.iterate_returned (Nat.le_add_right _ _) hphase, hphase] at hreturned
      cases hreturned
      exact ⟨[], t, c, rfl, List.not_mem_nil, hc, Phase.outcome?_eq_some.mp hgoing⟩
    | none =>
      obtain ⟨fs, u, c', hfs, hnone, hone, hc'⟩ := Service.exists_own_run_inTurn he hc
        (Service.run?_conserved (Pool.conserved_ofSize size) hrun)
        (fun _ _ hp => (followed_of_run he hrun hc).1.place_lt hp) hgoing
      have hcount : (es ++ fs).countP (·.isOf k) + d = es.countP (·.isOf k) + (d + 1) := by
        rw [List.countP_append, hone]
        omega
      obtain ⟨gs, v, c'', hgs, hnone', hc'', hphase⟩ :=
        ih (Service.run?_append hrun hfs) hc' (hcount ▸ hreturned)
      exact ⟨fs ++ gs, v, c'', Service.run?_append hfs hgs, by simpa using ⟨hnone, hnone'⟩, hc'', hphase⟩

/-- Closing the pool cuts the units of each request once. Units take slots in the order of submission, the pool is
closed at any moment, and the channel of the request stays open, whatever the others do. Then there is a cut: the
units before it say what their processor made of them and those from it on that the pool is shut down. All else is as
if the pool had stayed open. -/
theorem closing_cuts_once (he : errands[k]? = some errand) (hstays : errand.peer.Stays)
    (hrun : (Service.ofErrands config registry size errands).run? (closingLaw errands) es = some t)
    (hc : t.courses[k]? = some c) : ∃ cut, errand.CutOnce config registry errands k es t c cut := by
  obtain ⟨hturn, hstarts⟩ := Service.inTurn_run (Pool.inTurn_ofSize size) hrun
  rw [Nat.zero_add] at hturn
  obtain ⟨handled, followed⟩ := followed_of_run he hrun hc
  have hechoes := echoesAt_of_run (governs_closingLaw he) hstays he hrun hc
  have hslots : t.pool.Conserved := Service.run?_conserved (Pool.conserved_ofSize size) hrun
  refine ⟨c.places.countP (· < es.countP (·.isStart)), ?_, followed.indices, ?_, ?_, ?_, ?_, ?_, ?_⟩
  · intro i place hplace
    rw [lt_countP_iff_of_ascending followed.ordered hplace, hstarts]
    simp
  · exact fun m hm i hi => followed.said_inTurn hturn hm hi
  · intro size'
    obtain ⟨es', t', c', hrun', hc', hbare⟩ := exists_reaching config registry size' he (es.countP (·.isOf k))
    have hopen : t'.pool.closed = false := Service.run?_open (fun _ => rfl) rfl hrun'
    have hechoes' : errand.EchoesAt config registry (es.countP (·.isOf k)) c' := congrArg Course.mute hbare
    exact ⟨c', ⟨es', t', hrun', hc'⟩,
      followed.delivered_eq_cutAt hturn (followed_of_run he hrun' hc').2 hopen
        (hechoes.delivered.trans hechoes'.delivered.symm),
      hechoes.outcome?.trans hechoes'.outcome?.symm⟩
  · rintro size' c' o' ⟨es', t', hrun', hc'⟩ ho'
    have hopen : t'.pool.closed = false := Service.run?_open (fun _ => rfl) rfl hrun'
    have followed' := (followed_of_run he hrun' hc').2
    have hechoes' := echoesAt_of_run (governs_lawOf he) hstays he hrun' hc'
    obtain ⟨hfirst, hreturned⟩ := hechoes.of_returned hechoes' ho'
    refine ⟨followed.prefix_cutAt hturn followed' hopen hfirst, fun o ho => ?_⟩
    obtain ⟨hdelivered, houtcome⟩ := hreturned o ho
    exact ⟨followed.delivered_eq_cutAt hturn followed' hopen hdelivered, houtcome⟩
  · intro o ho
    refine followed.results_eq_places ho fun n hclosed => ?_
    exact not_closed_of_run (governs_closingLaw he) hstays he hrun hc n (hclosed ▸ ho)
  · exact Service.exists_step_inTurn he hc hslots fun d f hp => handled.place_lt hp
  · rintro size' c' o' ⟨es', t', hrun', hc'⟩ ho'
    have houtcome := (echoesAt_of_run (governs_lawOf he) hstays he hrun' hc').outcome?
    rw [ho'] at houtcome
    have hphase := Phase.outcome?_eq_some.mp houtcome.symm
    refine exists_return he hstays (es'.countP (·.isOf k)) hrun hc ?_
    rw [Course.iterate_returned (Nat.le_add_left _ _) hphase, hphase]

/-- A client that stays, of a resource with two frames. -/
def watching : Errand where
  request := { key := some "a", resource := some "v" }
  source _ := .ok { outcomes := [.frame ⟨1, 1, [1, 2, 3]⟩, .frame ⟨1, 1, [4, 5, 6]⟩] }
  peer := .ofCapacity none false

/-- The first unit holds the one slot when the pool is closed, and the second waits for it. -/
def closingEvents : List ServiceEvent :=
  [.course 0 (.sent true), .course 0 .opened, .course 0 (.looked false), .course 0 .read, .course 0 (.looked false),
    .course 0 .read, .course 0 (.looked false), .pool (.started 0), .pool .closed, .pool (.refused 1),
    .pool (.finished 0), .course 0 .ended, .course 0 (.sent true), .course 0 (.looked false), .course 0 .read,
    .course 0 (.looked false), .course 0 .ended, .course 0 (.sent true), .course 0 (.looked false)]

/-- The unit that had the slot says what came of it, the one that waited that the pool is shut down. -/
theorem closing_cuts_once_watching :
    ∃ t c cut, (Service.ofErrands { window := 2, defaultModel := "echo" } Registry.builtins 1 [watching]).run?
        (closingLaw [watching]) closingEvents = some t ∧ t.courses[0]? = some c ∧
      watching.CutOnce { window := 2, defaultModel := "echo" } Registry.builtins [watching] 0 closingEvents t c cut ∧
      cut = 1 ∧ c.phase = .returned (.finished .completed 2) ∧
      c.delivered[2]? = some (.unitError "a" 1 shutDown) := by
  obtain ⟨t, c, hrun, hc, hplaces, hphase, hdelivered⟩ : ∃ t c,
      (Service.ofErrands { window := 2, defaultModel := "echo" } Registry.builtins 1 [watching]).run?
        (closingLaw [watching]) closingEvents = some t ∧ t.courses[0]? = some c ∧ c.places = [0, 1] ∧
      c.phase = .returned (.finished .completed 2) ∧
      c.delivered[2]? = some (.unitError "a" 1 shutDown) :=
    ⟨_, _, rfl, rfl, rfl, rfl, rfl⟩
  obtain ⟨cut, hcut⟩ := closing_cuts_once rfl (fun _ => ⟨rfl, rfl⟩) hrun hc
  have hfirst := (hcut.slots 0 0 (by rw [hplaces]; rfl)).mpr (by decide)
  have hsecond := mt (hcut.slots 1 1 (by rw [hplaces]; rfl)).mp (by decide)
  exact ⟨t, c, cut, hrun, hc, hcut, by omega, hphase, hdelivered⟩

end FrameStream
