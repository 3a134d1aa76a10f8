import FrameStream.Proofs.Service.Steps
import FrameStream.Rehearsal.Jobs

/-!
# Rehearsals are runs

A rehearsal of jobs keeps a clock and a log, and fixes which of several moves comes first. Each of its moves
is one step of the service it stands for, or no step at all. So whatever holds of all runs of a service holds
of rehearsals, for any script.
-/

namespace FrameStream.Rehearsal

def Setting.opens (setting : Setting) (reference : String) : Except StreamError Resource :=
  (setting.provider reference).opening

/-- The request of a text before anything happens. A text that cannot be read is refused without a key. -/
def Setting.course (setting : Setting) (text : Bytes) : Course :=
  match Request.parse text with
  | .ok r => Course.ofRequest r setting.config setting.registry setting.opens
  | .error e => { source := setting.opens, phase := .rejecting none e.error }

/-- Where the request of a job stands. A job that has not begun stands at its first phase. -/
def Actor.phase (setting : Setting) (a : Actor) : Phase :=
  match a.activity with
  | .active t => t.phase
  | _ => (setting.course a.script.text).phase

/-- The job stands for this request. -/
structure Actor.Shows (setting : Setting) (a : Actor) (c : Course) : Prop where
  source : c.source = setting.opens
  phase : c.phase = a.phase setting
  delivered : c.delivered = a.delivered.reverse

/-- The rehearsal stands for this service. -/
structure Jobs.Shows (setting : Setting) (j : Jobs) (s : Service) : Prop where
  config : s.config = setting.config
  pool : s.pool = j.shared.pool
  length_eq : s.courses.length = j.actors.length
  actors : ∀ (i : Nat) (a : Actor) (c : Course), j.actors[i]? = some a → s.courses[i]? = some c → a.Shows setting c

/-- The service of a script before anything happens. -/
def Setting.service (setting : Setting) (pool : Pool) (scripts : List JobScript) : Service where
  config := setting.config
  pool := pool
  courses := scripts.map fun script => setting.course script.text

section Moves

variable {setting : Setting} {now : Nat} {s s' : Shared} {a a' : Actor} {c : Course}

theorem noteTask_pool (s : Shared) (setting : Setting) (time : Nat) (kind : LogKind) (t : Task) :
    (s.noteTask setting time kind t).pool = s.pool := by
  unfold Shared.noteTask
  simp only
  split <;> rfl

/-- A move of what jobs share is one of the pool. -/
theorem pool_of_move (h : s.move? setting now = some s') :
    ∃ e, e ≠ .closed ∧ s.pool.step? e = some s'.pool := by
  unfold Shared.move? at h
  split at h
  · rename_i hstart
    cases h
    unfold Shared.start? at hstart
    split at hstart
    · cases hstart
    · rename_i place pool hpool
      split at hstart
      · cases hstart
      · cases hstart
        rw [noteTask_pool]
        exact ⟨.started place, by simp, Pool.start?_startAt? hpool⟩
  · split at h
    · rename_i hfinish
      cases h
      unfold Shared.finish? at hfinish
      split at hfinish
      · cases hfinish
      · rename_i time place hdue
        split at hfinish
        · rename_i t pool ht hpool
          cases hfinish
          rw [noteTask_pool]
          exact ⟨.finished place, by simp, hpool⟩
        · cases hfinish
    · obtain ⟨pool, hpool, rfl⟩ := Option.map_eq_some_iff.mp h
      obtain ⟨place, hplace⟩ := Pool.refuse?_refuseAt? hpool
      exact ⟨.refused place, by simp, hplace⟩

/-- What a move that sends nothing does; `closed` is what the channel says of itself. -/
inductive TimedPhase.Moves (setting : Setting) (closed : Bool) (t t' : TimedPhase) (s s' : Shared) : Prop where
  /-- The delay of a read begins. -/
  | waits (phase : t'.phase = t.phase) (pool : s'.pool = s.pool)
  | opens (job : Job) (processor : Processor) (before : t.phase = .opening job processor)
      (phase : t'.phase = t.phase.opened setting.config (setting.opens job.resource)) (pool : s'.pool = s.pool)
  | looks (d : Dispatch) (before : t.phase = .refilling d) (phase : t'.phase = t.phase.looked closed)
      (pool : s'.pool = s.pool)
  | reads (d : Dispatch) (before : t.phase = .reading d) (phase : t'.phase = (t.phase.readDone s.pool).1)
      (pool : s'.pool = (t.phase.readDone s.pool).2)
  | learns (d : Dispatch) (f : Flight) (o : UnitOutcome) (before : t.phase = .awaiting d f)
      (ended : s.pool.outcome? f.place = some o) (phase : t'.phase = t.phase.unitEnded o) (pool : s'.pool = s.pool)

theorem moves_of_timed {t t' : TimedPhase} {closed : Bool} (h : t.move? setting now closed s = some (t', s')) :
    t.Moves setting closed t' s s' := by
  unfold TimedPhase.move? at h
  split at h
  · cases h
  · split at h
    · rename_i job p hp
      cases h
      exact .opens job p hp rfl rfl
    · rename_i d hp
      cases h
      exact .looks d hp rfl rfl
    · rename_i d hp
      simp only at h
      split at h
      · cases h
        exact .waits rfl rfl
      · cases h
        refine .reads d hp ?_ ?_ <;> rw [hp] <;> rfl
    · rename_i d f hp
      obtain ⟨o, ho, he⟩ := Option.map_eq_some_iff.mp h
      cases he
      exact .learns d f o hp ho rfl rfl
    · cases h

/-- A move that sends nothing leaves the request where it is, or is a step of it. -/
theorem step_of_timed {t t' : TimedPhase} {closed : Bool} (h : t.move? setting now closed s = some (t', s'))
    (hsource : c.source = setting.opens) (hphase : c.phase = t.phase) :
    (t'.phase = t.phase ∧ s'.pool = s.pool) ∨
    ∃ e c', c.step? setting.config s.pool e = some (c', s'.pool) ∧ c'.source = c.source ∧
      c'.phase = t'.phase ∧ c'.delivered = c.delivered := by
  cases moves_of_timed h with
  | waits phase pool => exact .inl ⟨phase, pool⟩
  | opens job p hp phase pool =>
    refine .inr ⟨.opened, { c with phase := t'.phase }, ?_, rfl, rfl, rfl⟩
    simp only [Course.step?, phase, pool, hphase, hp, Phase.reference?, Option.map_some, hsource]
  | looks d hp phase pool =>
    refine .inr ⟨.looked closed, { c with phase := t'.phase }, ?_, rfl, rfl, rfl⟩
    simp only [Course.step?, phase, pool, hphase, hp]
  | reads d hp phase pool =>
    have hreading : c.phase = .reading d := hphase.trans hp
    refine .inr ⟨.read, (c.takeRead s.pool).1, ?_, rfl, ?_, rfl⟩
    · simp only [Course.step?, hreading, pool, hp]
      rw [Course.takeRead, hreading]
    · rw [Course.takeRead, hreading, phase, hp]
  | learns d f o hp ended phase pool =>
    refine .inr ⟨.ended, { c with phase := t'.phase }, ?_, rfl, rfl, rfl⟩
    simp only [Course.step?, phase, pool, hphase, hp, ended, Option.map_some]

theorem phase_of_active {t : TimedPhase} (h : a.activity = .active t) : a.phase setting = t.phase := by
  rw [Actor.phase, h]

theorem Actor.Shows.of_eq (h : a.Shows setting c) (hphase : a'.phase setting = a.phase setting)
    (hdelivered : a'.delivered = a.delivered) : a'.Shows setting c :=
  ⟨h.source, h.phase.trans hphase.symm, by rw [h.delivered, hdelivered]⟩

theorem Actor.Shows.begin (h : a.Shows setting c) {time : Nat} (ha : a.activity = .waiting time) :
    (a.begin setting).Shows setting c := by
  have hphase : a.phase setting = (setting.course a.script.text).phase := by rw [Actor.phase, ha]
  refine h.of_eq ?_ ?_
  · rw [hphase]
    unfold Actor.begin Setting.course
    cases Request.parse a.script.text <;> rfl
  · unfold Actor.begin
    cases Request.parse a.script.text <;> rfl

theorem Actor.Shows.tell (h : a.Shows setting c) {t : TimedPhase} (ha : a.activity = .active t) (m : Message)
    (got : Bool) (hphase : a'.phase setting = t.phase.answered got)
    (hdelivered : a'.delivered = if got then m :: a.delivered else a.delivered) :
    a'.Shows setting (c.tell m got) := by
  refine ⟨h.source, ?_, ?_⟩
  · rw [Course.tell, h.phase, phase_of_active ha, hphase]
  · cases got with
    | true => simp [Course.tell, h.delivered, hdelivered]
    | false => simp [Course.tell, h.delivered, hdelivered]

/-- A message that is sent is delivered or is not, or is on its way. -/
theorem step_of_send (now : Nat) (s : Shared) (h : a.Shows setting c) {t : TimedPhase} (ha : a.activity = .active t)
    {m : Message} (hm : t.phase.message? = some m) :
    ((a.send s now t m).1.Shows setting c ∧ (a.send s now t m).2.pool = s.pool) ∨
    ∃ e c', c.step? setting.config s.pool e = some (c', (a.send s now t m).2.pool) ∧
      (a.send s now t m).1.Shows setting c' := by
  have hstep : ∀ got, c.step? setting.config s.pool (.sent got) = some (c.tell m got, s.pool) := by
    intro got
    rw [Course.step?, h.phase, phase_of_active ha, hm]
    rfl
  unfold Actor.send
  split
  · exact .inr ⟨.sent false, _, hstep false, h.tell ha m false rfl rfl⟩
  · split
    · exact .inr ⟨.sent true, _, hstep true, h.tell ha m true rfl rfl⟩
    · have hnote : (a.noteReads s m).delivered = a.delivered := by
        unfold Actor.noteReads
        split <;> rfl
      simp only
      split
      · refine .inr ⟨.sent true, _, hstep true, h.tell ha m true rfl ?_⟩
        change m :: (a.noteReads s m).delivered = _
        rw [hnote]
        rfl
      · exact .inl ⟨h.of_eq (phase_of_active ha).symm hnote, rfl⟩

/-- A move of a job leaves its request where it is, or is a step of it. -/
theorem step_of_actor (h : a.Shows setting c) (hm : a.move? setting now s = some (a', s')) :
    (a'.Shows setting c ∧ s'.pool = s.pool) ∨
    ∃ e c', c.step? setting.config s.pool e = some (c', s'.pool) ∧ a'.Shows setting c' := by
  unfold Actor.move? at hm
  split at hm
  · cases hm
  · rename_i time ha
    split at hm
    · cases hm
      exact .inl ⟨h.begin ha, rfl⟩
    · cases hm
  · rename_i t ha
    split at hm
    · rename_i m hmessage
      split at hm
      · cases hm
      · have hsend := step_of_send now s h ha hmessage
        rw [Option.some.inj hm] at hsend
        exact hsend
    · obtain ⟨⟨t', u⟩, ht, he⟩ := Option.map_eq_some_iff.mp hm
      cases he
      rcases step_of_timed ht h.source (h.phase.trans (phase_of_active ha)) with
        ⟨hphase, hpool⟩ | ⟨e, c', hstep, hsource, hphase, hdelivered⟩
      · exact .inl ⟨h.of_eq (hphase.trans (phase_of_active ha).symm) rfl, hpool⟩
      · exact .inr ⟨e, c', hstep, hsource.trans h.source, hphase, hdelivered.trans h.delivered⟩

end Moves

section Jobs

variable {setting : Setting} {j j' : Jobs} {s : Service}

/-- Letting the next job begin changes nothing that others see. -/
theorem getElem?_startNext (setting : Setting) {now : Nat} : ∀ {actors : List Actor} {i : Nat} {a' : Actor},
    (Jobs.startNext now actors)[i]? = some a' →
    ∃ a, actors[i]? = some a ∧ a'.phase setting = a.phase setting ∧ a'.delivered = a.delivered
  | [], _, _, h => by simp [Jobs.startNext] at h
  | a :: rest, i, a', h => by
    unfold Jobs.startNext at h
    split at h
    · rename_i ha
      cases i with
      | zero =>
        cases h
        refine ⟨a, rfl, ?_, rfl⟩
        simp only [Actor.phase, ha]
      | succ i => exact ⟨a', h, rfl, rfl⟩
    · cases i with
      | zero =>
        cases h
        exact ⟨a, rfl, rfl, rfl⟩
      | succ i =>
        have hrest : (Jobs.startNext now rest)[i]? = some a' := h
        obtain ⟨b, hb, hphase, hdelivered⟩ := getElem?_startNext setting hrest
        exact ⟨b, hb, hphase, hdelivered⟩

theorem length_startNext (now : Nat) : ∀ actors : List Actor, (Jobs.startNext now actors).length = actors.length
  | [] => rfl
  | a :: rest => by
    unfold Jobs.startNext
    split
    · rfl
    · rw [List.length_cons, List.length_cons, length_startNext now rest]

theorem Jobs.Shows.set (h : j.Shows setting s) {i : Nat} {a : Actor} (shared : Shared) {c : Course}
    (hi : i < j.actors.length) (ha : a.Shows setting c) :
    Jobs.Shows setting { j with shared, actors := j.actors.set i a }
      { s with pool := shared.pool, courses := s.courses.set i c } := by
  refine ⟨h.config, rfl, by simpa using h.length_eq, fun k b d hb hd => ?_⟩
  have hi' : i < s.courses.length := h.length_eq ▸ hi
  by_cases hk : i = k
  · subst hk
    simp only [List.getElem?_set_self hi, List.getElem?_set_self hi', Option.some.injEq] at hb hd
    subst hb hd
    exact ha
  · simp only [List.getElem?_set_ne hk] at hb hd
    exact h.actors k b d hb hd

theorem Jobs.Shows.settle (h : j.Shows setting s) {i : Nat} {a : Actor} (shared : Shared) {c : Course}
    (hi : i < j.actors.length) (ha : a.Shows setting c) :
    (j.settleActor i a shared).Shows setting { s with pool := shared.pool, courses := s.courses.set i c } := by
  unfold Jobs.settleActor
  split
  · have hread : Actor.Shows setting { a with reads := a.readsSoFar shared } c := ha.of_eq rfl rfl
    have hset := h.set shared hi hread
    refine ⟨hset.config, rfl, ?_, fun k b d hb hd => ?_⟩
    · rw [length_startNext]
      exact hset.length_eq
    · obtain ⟨b', hb', hphase, hdelivered⟩ := getElem?_startNext setting hb
      exact (hset.actors k b' d hb' hd).of_eq hphase hdelivered
  · exact h.set shared hi ha

theorem exists_of_moveActor : ∀ {actors : List Actor} {place : Nat}, (∀ i, actors[i]? = j.actors[place + i]?) →
    j.moveActor? setting place actors = some j' →
    ∃ i a a' shared, j.actors[i]? = some a ∧ a.move? setting j.now j.shared = some (a', shared) ∧
      j' = j.settleActor i a' shared
  | [], _, _, h => by simp [Jobs.moveActor?] at h
  | a :: rest, place, hactors, h => by
    unfold Jobs.moveActor? at h
    split at h
    · rename_i a' shared hm
      cases h
      exact ⟨place, a, a', shared, (hactors 0).symm, hm, rfl⟩
    · refine exists_of_moveActor (fun i => ?_) h
      have hnext := hactors (i + 1)
      rwa [Nat.add_assoc, Nat.add_comm 1 i]

/-- Every move of a rehearsal is no step of the service, or one. -/
theorem Jobs.Shows.move (h : j.Shows setting s) (hm : j.move? setting = some j') :
    j'.Shows setting s ∨ ∃ e t, e ≠ .pool .closed ∧ s.step? e = some t ∧ j'.Shows setting t := by
  unfold Jobs.move? at hm
  split at hm
  · rename_i shared hshared
    cases hm
    obtain ⟨e, he, hstep⟩ := pool_of_move hshared
    rw [← h.pool] at hstep
    refine .inr ⟨.pool e, { s with pool := shared.pool }, by simpa using he, Service.step?_of_pool hstep, ?_⟩
    exact ⟨h.config, rfl, h.length_eq, h.actors⟩
  · obtain ⟨i, a, a', shared, ha, hmove, rfl⟩ := exists_of_moveActor (by simp) hm
    have hi : i < j.actors.length := (List.getElem?_eq_some_iff.mp ha).1
    obtain ⟨c, hc⟩ : ∃ c, s.courses[i]? = some c :=
      ⟨_, List.getElem?_eq_getElem (h.length_eq ▸ hi : i < s.courses.length)⟩
    rcases step_of_actor (h.actors i a c ha hc) hmove with ⟨hshows, hpool⟩ | ⟨e, c', hstep, hshows⟩
    · have hsettle := h.settle shared hi hshows
      obtain ⟨hlt, rfl⟩ := List.getElem?_eq_some_iff.mp hc
      rw [hpool, ← h.pool, List.set_getElem_self hlt] at hsettle
      exact .inl hsettle
    · rw [← h.pool, ← h.config] at hstep
      exact .inr ⟨.course i e, _, by simp, Service.step?_of_course hc hstep, h.settle shared hi hshows⟩

/-- However long a rehearsal goes on, it stands for a run. -/
theorem Jobs.Shows.run : ∀ (fuel : Nat) {j : Jobs} {s : Service}, j.Shows setting s →
    ∃ es t, s.run? (fun _ e => e != .pool .closed) es = some t ∧ (Jobs.run setting fuel j).Shows setting t
  | 0, j, s, h => ⟨[], s, rfl, h⟩
  | fuel + 1, j, s, h => by
    unfold Jobs.run
    split
    · rename_i j' hm
      rcases h.move hm with hstay | ⟨e, u, he, hstep, hu⟩
      · exact Jobs.Shows.run fuel hstay
      · obtain ⟨es, t, hrun, ht⟩ := Jobs.Shows.run fuel hu
        refine ⟨e :: es, t, ?_, ht⟩
        simp only [Service.run?, hstep, Option.bind_some, hrun, bne_iff_ne, ne_eq, he, not_false_eq_true, ↓reduceIte]
    · split
      · exact Jobs.Shows.run fuel ⟨h.config, h.pool, h.length_eq, h.actors⟩
      · exact ⟨[], s, rfl, h⟩

end Jobs

/-- A whole rehearsal, for any script, is a run of the service over its requests. -/
theorem rehearse_run (setting : Setting) (pool : Pool) (sequential : Bool) (scripts : List JobScript) :
    ∃ es t, (setting.service pool scripts).run? (fun _ e => e != .pool .closed) es = some t ∧
      (Jobs.rehearse setting pool sequential scripts).Shows setting t := by
  have hwaiting : ∀ (script : JobScript) (activity : Activity), (∀ t, activity ≠ .active t) →
      Actor.Shows setting { script, activity } (setting.course script.text) := by
    intro script activity hactivity
    refine ⟨?_, ?_, ?_⟩
    · unfold Setting.course
      cases Request.parse script.text <;> rfl
    · cases activity with
      | active t => exact absurd rfl (hactivity t)
      | _ => rfl
    · unfold Setting.course
      cases Request.parse script.text <;> rfl
  refine Jobs.Shows.run _ ⟨rfl, rfl, ?_, ?_⟩
  · cases sequential <;> simp [Setting.service, Jobs.ofScripts, length_startNext]
  · intro i a c ha hc
    simp only [Setting.service, List.getElem?_map, Option.map_eq_some_iff] at hc
    obtain ⟨script, hscript, rfl⟩ := hc
    cases sequential with
    | true =>
      obtain ⟨b, hb, hphase, hdelivered⟩ := getElem?_startNext setting ha
      simp only [List.getElem?_map, hscript, Option.map_some, Option.some.injEq] at hb
      subst hb
      exact (hwaiting script .queued (by simp)).of_eq hphase hdelivered
    | false =>
      simp only [Jobs.ofScripts, List.getElem?_map, hscript, Option.map_some, Option.some.injEq, Bool.false_eq_true,
        ↓reduceIte] at ha
      subst ha
      exact hwaiting script (.waiting script.start) (by simp)

end FrameStream.Rehearsal
