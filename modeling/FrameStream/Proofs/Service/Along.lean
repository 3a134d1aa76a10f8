import FrameStream.Proofs.Places
import FrameStream.Proofs.Service.Plan

/-!
# A dispatch follows its plan

`Plan.Tracks` ties the state of a dispatch to its plan: the reads made, the units produced, those in flight,
and the messages sent. Counts of units run through every field, so that each later bound is a short sum.
`Plan.Along` adds what holds in each phase and at each end. Whatever the channel answers, in whatever order
units end, and whenever the pool is closed, no step leaves the plan (`Along.step`).
-/

namespace FrameStream

/-- The flights of units that stand at these places. -/
def flightsOf (places : List Nat) : List Flight := places.mapIdx fun i place => ⟨i, place⟩

@[simp] theorem flightsOf_length (places : List Nat) : (flightsOf places).length = places.length := by
  simp [flightsOf]

theorem flightsOf_concat (places : List Nat) (place : Nat) :
    flightsOf (places ++ [place]) = flightsOf places ++ [⟨places.length, place⟩] := by
  simp [flightsOf]

namespace Plan

/-- A message the client can get for a unit: what the processor makes of it, or that a closed pool did not
take it. -/
def Says (p : Plan) (closed : Bool) (i : Nat) (m : Message) : Prop :=
  m = p.message i ∨ (closed = true ∧ m = .unitError p.job.key i "worker pool is shut down")

/-- The messages of the first units, each of them once and in order. -/
structure Told (p : Plan) (closed : Bool) (n : Nat) (sent : List Message) : Prop where
  length_eq : sent.length = n
  said : ∀ i m, sent[i]? = some m → p.Says closed i m

/-- The dispatch `d` has made its reads and submitted its units as planned. The first units were sent;
`hand` units, one at most, are neither sent nor in flight. -/
structure Tracks (p : Plan) (pool : Pool) (reads : Nat) (places : List Nat) (sent : List Message)
    (d : Dispatch) (hand : Nat) : Prop where
  job : d.job = p.job
  processor : d.processor = p.processor
  window : d.window = p.room
  limit : d.producer.limit = p.limit
  resource : d.producer.resource = p.resource.after reads
  finished : d.producer.finished = d.exhausted
  within : (d.produced : ℕ∞) ≤ p.units
  reading : p.Reading d.produced reads d.exhausted d.readError
  placed : places.length = d.produced
  held : ∀ i place, places[i]? = some place → pool.Holds place p.processor (p.unit i)
  flights : d.inFlight = (flightsOf places).drop (d.emitted + hand)
  out : d.emitted + hand ≤ d.produced
  room : d.produced ≤ d.emitted + p.room
  reads_le : reads ≤ d.emitted + p.room
  told : p.Told pool.closed d.emitted sent

variable {p : Plan} {pool q : Pool} {reads hand : Nat} {places : List Nat} {sent : List Message} {d : Dispatch}

theorem Says.mono {closed closed' : Bool} (hc : closed = true → closed' = true) {i : Nat} {m : Message}
    (h : p.Says closed i m) : p.Says closed' i m :=
  h.imp id fun ⟨hclosed, hm⟩ => ⟨hc hclosed, hm⟩

theorem Told.mono {closed closed' : Bool} (hc : closed = true → closed' = true) {n : Nat}
    (h : p.Told closed n sent) : p.Told closed' n sent :=
  ⟨h.length_eq, fun i m hi => (h.said i m hi).mono hc⟩

theorem Told.concat {closed : Bool} {n : Nat} (h : p.Told closed n sent) {m : Message}
    (hm : p.Says closed n m) : p.Told closed (n + 1) (sent ++ [m]) := by
  refine ⟨by simp [h.length_eq], fun i m' hi => ?_⟩
  rcases getElem?_concat_eq_some hi with hold | ⟨rfl, rfl⟩
  · exact h.said i m' hold
  · rw [h.length_eq]
    exact hm

/-- On an open pool the messages are those of the plan. -/
theorem Told.eq_messages {n : Nat} (h : p.Told false n sent) : sent = p.messages n := by
  apply List.ext_getElem?
  intro i
  by_cases hi : i < n
  · have hlt : i < sent.length := h.length_eq ▸ hi
    have hsaid := h.said i sent[i] (List.getElem?_eq_getElem hlt)
    rcases hsaid with hm | ⟨hc, -⟩
    · rw [List.getElem?_eq_getElem hlt, hm]
      simp [messages, hi]
    · cases hc
  · have hle : sent.length ≤ i := by
      rw [h.length_eq]
      omega
    rw [List.getElem?_eq_none hle, List.getElem?_eq_none (by simpa using Nat.le_of_not_lt hi)]

theorem Tracks.moved (t : p.Tracks pool reads places sent d hand) (hm : pool.Moved q) :
    p.Tracks q reads places sent d hand :=
  { t with
    held := fun i place hi => (t.held i place hi).moved hm
    told := t.told.mono hm.closed }

theorem Tracks.inFlight_length (t : p.Tracks pool reads places sent d hand) :
    d.inFlight.length = d.produced - (d.emitted + hand) := by
  rw [t.flights, List.length_drop, flightsOf_length, t.placed]

/-- A dispatch that has told all its units at the end of its reading has come to the end of its plan. -/
theorem Tracks.at_end (t : p.Tracks pool reads places sent d hand) (hexhausted : d.exhausted = true)
    (hall : d.emitted = d.produced) :
    p.Reading d.emitted reads true d.readError ∧ p.units = d.emitted ∧ p.readCount = reads := by
  have reading := t.reading
  rw [hexhausted] at reading
  rw [hall]
  exact ⟨reading, reading.finished t.within⟩

/-- Where a request stands that follows its plan, after the messages `lead`. -/
inductive Along (p : Plan) (lead : List Message) (pool : Pool) (c : Course) : Prop where
  | refilling (d : Dispatch) (sent : List Message) (phase : c.phase = .refilling d)
    (tracks : p.Tracks pool c.reads c.places sent d 0)
    (delivered : c.delivered = lead ++ sent) (lost : c.lost = [])
  | reading (d : Dispatch) (sent : List Message) (phase : c.phase = .reading d)
    (tracks : p.Tracks pool c.reads c.places sent d 0)
    (delivered : c.delivered = lead ++ sent) (lost : c.lost = [])
    (going : d.exhausted = false) (below : (d.produced : ℕ∞) < p.requested)
    (space : d.produced < d.emitted + p.room)
  | awaiting (d : Dispatch) (f : Flight) (sent : List Message) (phase : c.phase = .awaiting d f)
    (tracks : p.Tracks pool c.reads c.places sent d 1)
    (delivered : c.delivered = lead ++ sent) (lost : c.lost = [])
    (index : f.index = d.emitted) (place : c.places[d.emitted]? = some f.place)
    (full : d.exhausted = false → d.produced = d.emitted + p.room)
  | sending (d : Dispatch) (m : Message) (sent : List Message) (phase : c.phase = .sending d m)
    (tracks : p.Tracks pool c.reads c.places sent d 1)
    (delivered : c.delivered = lead ++ sent) (lost : c.lost = [])
    (said : p.Says pool.closed d.emitted m)
    (full : d.exhausted = false → d.produced = d.emitted + p.room)
  | failing (d : Dispatch) (e : StreamError) (sent : List Message) (phase : c.phase = .failing d e)
    (tracks : p.Tracks pool c.reads c.places sent d 0)
    (delivered : c.delivered = lead ++ sent) (lost : c.lost = [])
    (all : d.emitted = d.produced) (exhausted : d.exhausted = true) (error : d.readError = some e)
  | completed (d : Dispatch) (sent : List Message) (phase : c.phase = d.ending .completed)
    (tracks : p.Tracks pool c.reads c.places sent d 0)
    (delivered : c.delivered = lead ++ sent) (lost : c.lost = [])
    (all : d.emitted = d.produced) (exhausted : d.exhausted = true) (error : d.readError = none)
  | failed (d : Dispatch) (e : StreamError) (sent : List Message) (phase : c.phase = d.ending .resourceFailed)
    (tracks : p.Tracks pool c.reads c.places sent d 0)
    (delivered : c.delivered = lead ++ sent ++ [.error p.job.key e.message]) (lost : c.lost = [])
    (all : d.emitted = d.produced) (exhausted : d.exhausted = true) (error : d.readError = some e)
  | closed (d : Dispatch) (hand : Nat) (sent : List Message) (phase : c.phase = d.ending .channelClosed)
    (tracks : p.Tracks pool c.reads c.places sent d hand)
    (delivered : c.delivered = lead ++ sent)
    (lost : c.lost = [] ∨ (∃ m, c.lost = [m] ∧ p.Says pool.closed d.emitted m) ∨
      ∃ e, c.lost = [.error p.job.key e.message] ∧ d.emitted = d.produced ∧
        d.exhausted = true ∧ d.readError = some e)

variable {lead : List Message} {c c' : Course}

theorem along_start (p : Plan) (pool : Pool) (hphase : c.phase = .refilling p.start) (hreads : c.reads = 0)
    (hplaces : c.places = []) (hdelivered : c.delivered = lead) (hlost : c.lost = []) :
    p.Along lead pool c := by
  refine .refilling p.start [] hphase ?_ (by simpa using hdelivered) hlost
  rw [hreads, hplaces]
  exact {
    job := rfl, processor := rfl, window := rfl, limit := rfl, resource := rfl, finished := rfl
    within := zero_le
    reading := .going
    placed := rfl
    held := by simp
    flights := rfl
    out := Nat.le_refl 0
    room := Nat.zero_le _
    reads_le := Nat.zero_le _
    told := ⟨rfl, by simp⟩ }

/-- What others do to the pool keeps a request on its plan. -/
theorem Along.moved (h : p.Along lead pool c) (hm : pool.Moved q) : p.Along lead q c := by
  cases h with
  | refilling d sent phase tracks delivered lost =>
    exact .refilling d sent phase (tracks.moved hm) delivered lost
  | reading d sent phase tracks delivered lost going below space =>
    exact .reading d sent phase (tracks.moved hm) delivered lost going below space
  | awaiting d f sent phase tracks delivered lost index place full =>
    exact .awaiting d f sent phase (tracks.moved hm) delivered lost index place full
  | sending d m sent phase tracks delivered lost said full =>
    exact .sending d m sent phase (tracks.moved hm) delivered lost (said.mono hm.closed) full
  | failing d e sent phase tracks delivered lost all exhausted error =>
    exact .failing d e sent phase (tracks.moved hm) delivered lost all exhausted error
  | completed d sent phase tracks delivered lost all exhausted error =>
    exact .completed d sent phase (tracks.moved hm) delivered lost all exhausted error
  | failed d e sent phase tracks delivered lost all exhausted error =>
    exact .failed d e sent phase (tracks.moved hm) delivered lost all exhausted error
  | closed d hand sent phase tracks delivered lost =>
    refine .closed d hand sent phase (tracks.moved hm) delivered (lost.imp id (.imp ?_ id))
    rintro ⟨m, hlost, said⟩
    exact ⟨m, hlost, said.mono hm.closed⟩

/-- There is room exactly while reading goes on and the window is not full. -/
theorem Tracks.hasRoom_iff (t : p.Tracks pool reads places sent d 0) :
    d.hasRoom = true ↔ d.exhausted = false ∧ d.produced < d.emitted + p.room := by
  have hlen := t.inFlight_length
  have hout := t.out
  simp only [Dispatch.hasRoom, Bool.and_eq_true, Bool.not_eq_true', decide_eq_true_eq, t.window]
  refine and_congr_right fun _ => ?_
  omega

/-- A dispatch without room goes to the unit in front, or ends as planned. -/
theorem Tracks.along_front (t : p.Tracks pool c.reads c.places sent d 0)
    (hdelivered : c.delivered = lead ++ sent) (hlost : c.lost = [])
    (hfull : d.exhausted = false → d.produced = d.emitted + p.room) :
    p.Along lead pool { c with phase := d.front } := by
  have hlen := t.inFlight_length
  have hplaced := t.placed
  cases hf : d.inFlight with
  | nil =>
    have hall : d.emitted = d.produced := by
      rw [hf] at hlen
      have hout := t.out
      simp only [List.length_nil] at hlen
      omega
    have hexhausted : d.exhausted = true := by
      by_contra hne
      have hfull := hfull (by simpa using hne)
      have hpos := p.room_pos
      omega
    cases he : d.readError with
    | none =>
      exact .completed d sent (by simp [Dispatch.front, hf, he]) t hdelivered hlost hall hexhausted he
    | some e =>
      exact .failing d e sent (by simp [Dispatch.front, hf, he]) t hdelivered hlost hall hexhausted he
  | cons f rest =>
    have hlt : d.emitted < c.places.length := by
      rw [hf] at hlen
      simp only [List.length_cons] at hlen
      omega
    have hdrop := t.flights
    rw [hf, Nat.add_zero, List.drop_eq_getElem_cons (by simpa using hlt)] at hdrop
    obtain ⟨hfront, hrest⟩ := List.cons.inj hdrop
    refine .awaiting { d with inFlight := rest } f sent (by simp [Dispatch.front, hf]) ?_ hdelivered hlost
      ?_ ?_ hfull
    · exact { t with
        flights := hrest
        out := by
          change d.emitted + 1 ≤ d.produced
          omega }
    · simp [hfront, flightsOf]
    · simp [hfront, flightsOf, hlt]

theorem Tracks.along_refill (t : p.Tracks pool c.reads c.places sent d 0)
    (hdelivered : c.delivered = lead ++ sent) (hlost : c.lost = []) (closed : Bool) :
    p.Along lead pool { c with phase := d.refill closed } := by
  cases hroom : d.hasRoom with
  | false =>
    have hphase : d.refill closed = d.front := by simp [Dispatch.refill, hroom]
    rw [hphase]
    refine t.along_front hdelivered hlost fun hgoing => ?_
    have hno := mt t.hasRoom_iff.mpr (by simp [hroom])
    have hle := t.room
    simp only [hgoing, true_and, not_lt] at hno
    omega
  | true =>
    obtain ⟨hgoing, hspace⟩ := t.hasRoom_iff.mp hroom
    cases closed with
    | true =>
      have hphase : d.refill true = d.ending .channelClosed := by simp [Dispatch.refill, hroom]
      exact .closed d 0 sent hphase t hdelivered (.inl hlost)
    | false =>
      have hstopped : d.producer.stopped = d.producer.atLimit := by
        simp [Producer.stopped, t.finished, hgoing]
      cases hlimit : d.producer.atLimit with
      | false =>
        have hphase : d.refill false = .reading d := by simp [Dispatch.refill, hroom, hstopped, hlimit]
        refine .reading d sent hphase t hdelivered hlost hgoing ?_ hspace
        rw [← not_le]
        exact fun hle => by simp [(p.atLimit_iff t.limit).mpr hle] at hlimit
      | true =>
        -- The limit is reached: nothing is read, and the dispatch goes to the front.
        have hphase : d.refill false =
            Dispatch.front { d with exhausted := true, producer := { d.producer with finished := true } } := by
          simp [Dispatch.refill, hroom, hstopped, hlimit]
        rw [hphase]
        have hrequested : p.requested = (d.produced : ℕ∞) :=
          le_antisymm ((p.atLimit_iff t.limit).mp hlimit) (t.within.trans p.units_le_requested)
        have hreading := t.reading
        rw [hgoing] at hreading
        obtain ⟨hreads, herror⟩ := hreading.eq_of_going
        refine Tracks.along_front (d := { d with
          exhausted := true, producer := { d.producer with finished := true } }) ?_ hdelivered hlost (by simp)
        refine { t with finished := rfl, reading := ?_ }
        change p.Reading d.produced c.reads true d.readError
        rw [hreads, herror]
        exact .limited hrequested

/-- Where reading goes on, every read so far was a frame, and the next one is the next of the resource. -/
theorem Tracks.next_read (t : p.Tracks pool reads places sent d 0) (hgoing : d.exhausted = false) :
    reads = d.produced ∧ d.readError = none ∧ d.producer.resource.peek = p.resource.outcomeAt d.produced := by
  have hreading := t.reading
  rw [hgoing] at hreading
  obtain ⟨hreads, herror⟩ := hreading.eq_of_going
  refine ⟨hreads, herror, ?_⟩
  rw [t.resource, Resource.peek_after, hreads]

theorem Tracks.advance_eq (t : p.Tracks pool reads places sent d 0) :
    d.producer.resource.advance = p.resource.after (reads + 1) := by
  rw [t.resource, Resource.advance_after]

/-- The unit of a frame is submitted, and goes behind those that are in flight. -/
theorem Tracks.along_frame (t : p.Tracks pool c.reads c.places sent d 0) (hphase : c.phase = .reading d)
    (hdelivered : c.delivered = lead ++ sent) (hlost : c.lost = []) (hgoing : d.exhausted = false)
    (hbelow : (d.produced : ℕ∞) < p.requested) (hspace : d.produced < d.emitted + p.room) {f : Frame}
    (hframe : p.resource.outcomeAt d.produced = .frame f) :
    p.Along lead (c.takeRead pool).2 (c.takeRead pool).1 := by
  obtain ⟨hreads, herror, hpeek⟩ := t.next_read hgoing
  rw [Course.takeRead_frame hphase (hpeek.trans hframe)]
  have hunit : (⟨d.produced, f⟩ : WorkUnit) = p.unit d.produced := by
    simp [unit, hframe, ReadOutcome.frame!]
  have hsucc : ((d.produced + 1 : Nat) : ℕ∞) ≤ p.units := by
    rw [units_eq_min, le_min_iff]
    refine ⟨by exact_mod_cast Order.add_one_le_of_lt hbelow, ?_⟩
    exact Resource.succ_le_frames (t.within.trans p.units_le_frames) (by simp [hframe, ReadOutcome.isFrame])
  have hmoved : pool.Moved (pool.submit d.processor ⟨d.produced, f⟩) := .submitted _ _
  have told := (t.moved hmoved).told
  have out := t.out
  have placed := t.placed
  refine .refilling _ sent rfl ?_ hdelivered hlost
  refine {
    job := t.job, processor := t.processor, window := t.window, limit := t.limit, resource := t.advance_eq
    finished := t.finished, within := hsucc, reading := ?_, placed := ?_, held := ?_, flights := ?_
    out := ?_, room := hspace, reads_le := ?_, told }
  · change p.Reading (d.produced + 1) (c.reads + 1) d.exhausted d.readError
    rw [hreads, hgoing, herror]
    exact .going
  · rw [List.length_append, placed]
    rfl
  · intro i place hi
    rcases getElem?_concat_eq_some hi with hold | ⟨rfl, rfl⟩
    · exact (t.held i place hold).moved hmoved
    · rw [placed, ← hunit, ← t.processor]
      exact pool.holds_submit d.processor _
  · change d.inFlight ++ [⟨d.produced, pool.tasks.length⟩] =
      (flightsOf (c.places ++ [pool.tasks.length])).drop d.emitted
    rw [flightsOf_concat, List.drop_append_of_le_length (by simp; omega), t.flights, placed]
    rfl
  · change d.emitted + 0 ≤ d.produced + 1
    omega
  · change c.reads + 1 ≤ d.emitted + p.room
    omega

/-- A read that gives no frame is the last one. -/
theorem Tracks.exhausted (t : p.Tracks pool reads places sent d 0) (hgoing : d.exhausted = false)
    (hspace : d.produced < d.emitted + p.room) {error : Option StreamError}
    (hlast : p.Reading d.produced (reads + 1) true error) :
    p.Tracks pool (reads + 1) places sent { d with
      exhausted := true, readError := error
      producer := { d.producer with resource := d.producer.resource.advance, finished := true } } 0 := by
  obtain ⟨hreads, -, -⟩ := t.next_read hgoing
  refine { t with resource := t.advance_eq, finished := rfl, reading := hlast, reads_le := ?_ }
  change reads + 1 ≤ d.emitted + p.room
  omega

theorem Tracks.along_read (t : p.Tracks pool c.reads c.places sent d 0) (hphase : c.phase = .reading d)
    (hdelivered : c.delivered = lead ++ sent) (hlost : c.lost = []) (hgoing : d.exhausted = false)
    (hbelow : (d.produced : ℕ∞) < p.requested) (hspace : d.produced < d.emitted + p.room) :
    p.Along lead (c.takeRead pool).2 (c.takeRead pool).1 := by
  obtain ⟨hreads, herror, hpeek⟩ := t.next_read hgoing
  cases ho : p.resource.outcomeAt d.produced with
  | frame f => exact t.along_frame hphase hdelivered hlost hgoing hbelow hspace ho
  | ended =>
    rw [Course.takeRead_ended hphase (hpeek.trans ho)]
    refine .refilling _ sent rfl (t.exhausted hgoing hspace ?_) hdelivered hlost
    rw [hreads, herror]
    exact .ended hbelow ho
  | failed e =>
    rw [Course.takeRead_failed hphase (hpeek.trans ho)]
    refine .refilling _ sent rfl (t.exhausted hgoing hspace ?_) hdelivered hlost
    rw [hreads]
    exact .failed hbelow ho

theorem Tracks.said_message (t : p.Tracks pool reads places sent d hand) {i place : Nat}
    (hi : places[i]? = some place) {o : UnitOutcome} (ho : pool.outcome? place = some o) :
    p.Says pool.closed i (d.message i o) := by
  rw [message_eq, t.job]
  rcases (t.held i place hi).outcome ho with rfl | ⟨hclosed, rfl⟩
  · exact .inl rfl
  · exact .inr ⟨hclosed, rfl⟩

theorem Tracks.deliver (t : p.Tracks pool reads places sent d 1) {m : Message}
    (said : p.Says pool.closed d.emitted m) :
    p.Tracks pool reads places (sent ++ [m]) { d with emitted := d.emitted + 1 } 0 := by
  have out := t.out
  have room := t.room
  have reads_le := t.reads_le
  refine { t with flights := t.flights, out := out, room := ?_, reads_le := ?_, told := t.told.concat said }
  · change d.produced ≤ d.emitted + 1 + p.room
    omega
  · change reads ≤ d.emitted + 1 + p.room
    omega

/-- No step of a request leaves its plan. -/
theorem Along.step (h : p.Along lead pool c) {config : ServiceConfig} {e : CourseEvent}
    (hs : c.step? config pool e = some (c', q)) : p.Along lead q c' := by
  cases h with
  | refilling d sent phase tracks delivered lost =>
    obtain ⟨closed, -, rfl, rfl⟩ := Course.step?_refilling phase hs
    exact tracks.along_refill delivered lost closed
  | reading d sent phase tracks delivered lost going below space =>
    obtain ⟨-, hread⟩ := Course.step?_reading phase hs
    have halong := tracks.along_read phase delivered lost going below space
    rwa [hread] at halong
  | awaiting d f sent phase tracks delivered lost index place full =>
    obtain ⟨o, -, ho, rfl, rfl⟩ := Course.step?_awaiting phase hs
    rw [index]
    exact .sending d _ sent rfl tracks delivered lost (tracks.said_message place ho) full
  | sending d m sent phase tracks delivered lost said full =>
    obtain ⟨got, -, rfl, rfl⟩ := Course.step?_sending (m := m) (by simp [phase, Phase.message?]) hs
    cases got with
    | true =>
      refine .refilling { d with emitted := d.emitted + 1 } (sent ++ [m]) ?_ (tracks.deliver said) ?_ lost
      · simp [Course.tell, phase, Phase.answered]
      · simp [Course.tell, delivered]
    | false =>
      refine .closed d 1 sent ?_ tracks delivered (.inr (.inl ⟨m, ?_, said⟩))
      · simp [Course.tell, phase, Phase.answered]
      · simp [Course.tell, lost]
  | failing d e sent phase tracks delivered lost all exhausted error =>
    obtain ⟨got, -, rfl, rfl⟩ :=
      Course.step?_sending (m := .error d.job.key e.message) (by simp [phase, Phase.message?]) hs
    rw [tracks.job]
    cases got with
    | true =>
      refine .failed d e sent ?_ tracks ?_ lost all exhausted error
      · simp [Course.tell, phase, Phase.answered]
      · simp [Course.tell, delivered]
    | false =>
      refine .closed d 0 sent ?_ tracks delivered (.inr (.inr ⟨e, ?_, all, exhausted, error⟩))
      · simp [Course.tell, phase, Phase.answered]
      · simp [Course.tell, lost]
  | completed d sent phase => rw [Course.step?_returned phase] at hs; cases hs
  | failed d e sent phase => rw [Course.step?_returned phase] at hs; cases hs
  | closed d hand sent phase => rw [Course.step?_returned phase] at hs; cases hs

end Plan
end FrameStream
