import FrameStream.Proofs.Channel.Feeding

/-!
# Frames on their way out

With every channel comes a loop that takes frames out of its queue and writes them. `Outflow` is the traffic of a book
of channels out of whose queues nobody but these loops takes anything, with a record of what they wrote. Channels are
opened under any names, cancelled, closed, pinged and shut down, jobs take slots and give them back, messages are sent
by whoever has a handle, and those who wait are woken in any order; a loop may fail to write or be stopped.

Whatever happens, a loop runs as long as its channel is received from, and a channel that stands in the book has no
closing frame on its way out.
-/

namespace FrameStream

/-- What happens on the channels of a book and in the loops that write out their frames. -/
inductive OutflowEvent where
  | opened (conn : String)
  | traffic (e : TrafficEvent)
  | begun (conn key : String)
  | ended (conn : String) (id : JobId)
  /-- The loop of a channel takes the next frame, or stops because none can come. -/
  | forwarded (n : ChannelNumber)
  | written (n : ChannelNumber)
  | writeFailed (n : ChannelNumber)
  /-- The loop of a channel is stopped by somebody else. -/
  | stopped (n : ChannelNumber)
  deriving Repr

/-- What a forwarding loop has in hand and what is queued for it, in the order in which it writes. -/
def Connection.unwritten (c : Connection) (o : Outbound) : List OutFrame := c.frame?.toList ++ o.queued

theorem Connection.unwritten_idle {c : Connection} {o : Outbound} (h : c.forwarding = .idle) :
    c.unwritten o = o.queued := by
  rw [unwritten, frame?, h]
  rfl

theorem Connection.unwritten_writing {c : Connection} {o : Outbound} {f : OutFrame} (h : c.forwarding = .writing f) :
    c.unwritten o = f :: o.queued := by
  rw [unwritten, frame?, h]
  rfl

theorem Connection.running_of_idle {c : Connection} (h : c.forwarding = .idle) : c.forwarding ≠ .stopped := by
  simp [h]

theorem Connection.running_of_writing {c : Connection} {f : OutFrame} (h : c.forwarding = .writing f) :
    c.forwarding ≠ .stopped := by
  simp [h]

/-- What gets into the queue is behind all that the loop has still to write. -/
theorem Connection.unwritten_fed {b : ChannelBook} {e : TrafficEvent} {n : ChannelNumber} {o o' : Outbound}
    (c : Connection) (h : b.Fed e n o o') : ∃ more, b.Gain e n o more ∧ c.unwritten o' = c.unwritten o ++ more := by
  obtain ⟨more, hgain, hqueued⟩ := h.queued
  exact ⟨more, hgain, by rw [unwritten, hqueued, ← List.append_assoc, unwritten]⟩

/-- The traffic of a book of channels and the loops that write out its frames. -/
structure Outflow where
  traffic : Traffic
  /-- The connection of every channel, in the order in which channels were opened. -/
  loops : List Connection := []
  /-- The frames that were written, in order, each with its channel. -/
  written : List (ChannelNumber × OutFrame) := []

namespace Outflow

def start (depth : Nat) : Outflow := { traffic := .start depth }

def book (t : Outflow) : ChannelBook := t.traffic.book

def setBook (t : Outflow) (book : ChannelBook) : Outflow := { t with traffic := { t.traffic with book } }

/-- The state with the loop of a channel and the book changed. -/
def setLoop (t : Outflow) (n : ChannelNumber) (changed : Connection × ChannelBook) : Outflow :=
  { t.setBook changed.2 with loops := t.loops.set n changed.1 }

def step? (t : Outflow) : OutflowEvent → Option Outflow
  | .opened conn =>
    let (channel, book) := t.book.openChannel conn
    some { t.setBook book with loops := t.loops ++ [{ conn, channel }] }
  | .traffic e => if e.upstream then (t.traffic.step? e).map fun traffic => { t with traffic } else none
  | .begun conn key =>
    match t.book.beginJob conn key with
    | .ok (_, book) => some (t.setBook book)
    | .error _ => some t
  | .ended conn id => some (t.setBook (t.book.endJob conn id).2)
  | .forwarded n => (t.loops[n]?).bind fun c => (c.forward? t.book).map (t.setLoop n)
  | .written n => (t.loops[n]?).bind fun c => c.frame?.map fun f =>
      { t.setLoop n (c.written t.book) with written := t.written ++ [(n, f)] }
  | .writeFailed n => (t.loops[n]?).bind fun c => c.frame?.map fun _ => t.setLoop n (c.writeFailed t.book)
  | .stopped n => (t.loops[n]?).map fun c => t.setLoop n (c.stop t.book)

def run? (t : Outflow) (es : List OutflowEvent) : Option Outflow := es.foldlM step? t

/-- The frames that were written on a channel. -/
def writtenOn (t : Outflow) (n : ChannelNumber) : List OutFrame := (t.written.filter (·.1 = n)).map (·.2)

/-- The frames of a channel that are queued or in hand. -/
def unwrittenOn (t : Outflow) (n : ChannelNumber) : List OutFrame :=
  match t.loops[n]?, t.book.channels[n]? with
  | some c, some o => c.unwritten o
  | _, _ => []

/-- The loop of a channel runs. -/
def Running (t : Outflow) (n : ChannelNumber) : Prop := ∃ c, t.loops[n]? = some c ∧ c.forwarding ≠ .stopped

end Outflow

/-- The channel whose loop moves. -/
def OutflowEvent.loop? : OutflowEvent → Option ChannelNumber
  | .forwarded n => some n
  | .written n => some n
  | .writeFailed n => some n
  | .stopped n => some n
  | _ => none

namespace Outflow

variable {t t' : Outflow} {e : OutflowEvent} {es : List OutflowEvent} {n : ChannelNumber} {c c' : Connection}
  {o o' : Outbound} {depth : Nat}

/-! ## What every run keeps -/

/-- The loop of a channel and its queue agree. -/
structure Agrees (b : ChannelBook) (n : ChannelNumber) (c : Connection) (o : Outbound) : Prop where
  home : c.channel = n
  receiving : o.receiving = true ↔ c.forwarding ≠ .stopped
  idle : o.Idle
  /-- No channel that stands in the book is about to say goodbye. -/
  unparted : b.Lists n → .close ∉ c.unwritten o

/-- The book is in order, and every channel has a loop that agrees with its queue. -/
structure Kept (t : Outflow) : Prop where
  tidy : t.book.Tidy
  loops : t.loops.length = t.book.channels.length
  agrees : ∀ n c o, t.loops[n]? = some c → t.book.channels[n]? = some o → Agrees t.book n c o

theorem kept_start (depth : Nat) : (start depth).Kept where
  tidy := ChannelBook.tidy_ofDepth depth
  loops := rfl
  agrees _ _ _ hc := nomatch hc

/-- What a loop does in one event with its connection and its queue, and the frames it writes. -/
inductive Turn (n : ChannelNumber) (c : Connection) (o : Outbound) :
    OutflowEvent → List OutFrame → Connection → Outbound → Prop where
  | takes (f : OutFrame) (rest : List OutFrame) (idle : c.forwarding = .idle) (first : o.queued = f :: rest) :
    Turn n c o (.forwarded n) [] { c with forwarding := .writing f } { o with queued := rest }
  /-- Nothing is queued and nothing can come. -/
  | ends (idle : c.forwarding = .idle) (empty : o.queued = []) :
    Turn n c o (.forwarded n) [] { c with forwarding := .stopped } o.dropReceiver
  | writes (f : OutFrame) (inHand : c.forwarding = .writing f) (goesOn : f ≠ .close) :
    Turn n c o (.written n) [f] { c with forwarding := .idle } o
  | parts (inHand : c.forwarding = .writing .close) :
    Turn n c o (.written n) [.close] { c with forwarding := .stopped } o.dropReceiver
  | fails (f : OutFrame) (inHand : c.forwarding = .writing f) :
    Turn n c o (.writeFailed n) [] { c with forwarding := .stopped } o.cancel.dropReceiver
  | stops : Turn n c o (.stopped n) [] { c with forwarding := .stopped } o.dropReceiver

theorem frame?_eq_some {f : OutFrame} : c.frame? = some f ↔ c.forwarding = .writing f := by
  unfold Connection.frame?
  cases c.forwarding <;> simp

theorem Kept.exists_queue (h : t.Kept) (hc : t.loops[n]? = some c) :
    ∃ o, t.book.channels[n]? = some o ∧ Agrees t.book n c o := by
  have hn : n < t.book.channels.length := h.loops ▸ (List.getElem?_eq_some_iff.mp hc).1
  have ho := List.getElem?_eq_getElem hn
  exact ⟨_, ho, h.agrees n c _ hc ho⟩

/-- The event is a turn of the loop of a channel, and changes its connection and its queue alone. -/
def Turns (n : ChannelNumber) (e : OutflowEvent) (t t' : Outflow) : Prop :=
  ∃ c o w c' o', t.loops[n]? = some c ∧ t.book.channels[n]? = some o ∧ Turn n c o e w c' o' ∧
    t'.loops = t.loops.set n c' ∧ t'.book = (t.book.modify n fun _ => o') ∧
    t'.written = t.written ++ w.map fun f => (n, f)

theorem Agrees.stop_eq {b : ChannelBook} (h : Agrees b n c o) (ho : b.channels[n]? = some o) :
    c.stop b = ({ c with forwarding := .stopped }, b.modify n fun _ => o.dropReceiver) := by
  rw [Connection.stop, h.home, ChannelBook.modify_eq ho]

theorem Agrees.writeFailed_eq {b : ChannelBook} (h : Agrees b n c o) (ho : b.channels[n]? = some o) :
    c.writeFailed b = ({ c with forwarding := .stopped }, b.modify n fun _ => o.cancel.dropReceiver) := by
  have hcancel : (b.cancel n).modify n Outbound.dropReceiver = b.modify n fun _ => o.cancel.dropReceiver := by
    rw [ChannelBook.cancel, ChannelBook.modify_modify, ChannelBook.modify_eq ho]
    rfl
  rw [Connection.writeFailed, Connection.stop, h.home, hcancel]

theorem written_of_ne_close {b : ChannelBook} {f : OutFrame} (h : c.forwarding = .writing f) (hf : f ≠ .close) :
    c.written b = ({ c with forwarding := .idle }, b) := by
  unfold Connection.written
  rw [h]
  cases f with
  | close => exact absurd rfl hf
  | text s => rfl
  | ping => rfl

theorem take?_eq_none {b : ChannelBook} (ho : b.channels[n]? = some o) (h : b.take? n = none) : o.queued = [] := by
  simp only [ChannelBook.take?, ChannelBook.channel?, ho, Option.map_eq_none_iff] at h
  unfold Outbound.take? at h
  split at h
  · assumption
  · cases h

theorem Kept.turns_forwarded (h : t.Kept) (hs : t.step? (.forwarded n) = some t') : Turns n (.forwarded n) t t' := by
  obtain ⟨c, hc, hmap⟩ := Option.bind_eq_some_iff.mp hs
  obtain ⟨changed, hforward, rfl⟩ := Option.map_eq_some_iff.mp hmap
  obtain ⟨o, ho, hagrees⟩ := h.exists_queue hc
  obtain ⟨hidle, ⟨f, o', p, ho', htake, rfl⟩ | ⟨htake, -, rfl⟩⟩ := Connection.forward?_cases hforward
  · rw [hagrees.home, ho, Option.some.injEq] at ho'
    subst ho'
    obtain ⟨rest, hfirst, rfl⟩ := Outbound.take?_eq_some.mp htake
    refine ⟨c, o, [], _, _, hc, ho, .takes f rest hidle hfirst, rfl, ?_, (List.append_nil _).symm⟩
    rw [← hagrees.home]
    rfl
  · have hempty : o.queued = [] := take?_eq_none ho (hagrees.home ▸ htake)
    rw [hagrees.stop_eq ho]
    exact ⟨c, o, [], _, _, hc, ho, .ends hidle hempty, rfl, rfl, (List.append_nil _).symm⟩

theorem Kept.turns_written (h : t.Kept) (hs : t.step? (.written n) = some t') : Turns n (.written n) t t' := by
  obtain ⟨c, hc, hmap⟩ := Option.bind_eq_some_iff.mp hs
  obtain ⟨f, hframe, rfl⟩ := Option.map_eq_some_iff.mp hmap
  obtain ⟨o, ho, hagrees⟩ := h.exists_queue hc
  have hinHand := frame?_eq_some.mp hframe
  by_cases hclose : f = .close
  · subst hclose
    have hwritten : c.written t.book = c.stop t.book := by rw [Connection.written, hinHand]
    rw [hwritten, hagrees.stop_eq ho]
    exact ⟨c, o, [.close], _, _, hc, ho, .parts hinHand, rfl, rfl, rfl⟩
  · rw [written_of_ne_close hinHand hclose]
    exact ⟨c, o, [f], _, _, hc, ho, .writes f hinHand hclose, rfl, (Traffic.modify_self_eq ho).symm, rfl⟩

theorem Kept.turns_writeFailed (h : t.Kept) (hs : t.step? (.writeFailed n) = some t') :
    Turns n (.writeFailed n) t t' := by
  obtain ⟨c, hc, hmap⟩ := Option.bind_eq_some_iff.mp hs
  obtain ⟨f, hframe, rfl⟩ := Option.map_eq_some_iff.mp hmap
  obtain ⟨o, ho, hagrees⟩ := h.exists_queue hc
  rw [hagrees.writeFailed_eq ho]
  exact ⟨c, o, [], _, _, hc, ho, .fails f (frame?_eq_some.mp hframe), rfl, rfl, (List.append_nil _).symm⟩

theorem Kept.turns_stopped (h : t.Kept) (hs : t.step? (.stopped n) = some t') : Turns n (.stopped n) t t' := by
  obtain ⟨c, hc, rfl⟩ := Option.map_eq_some_iff.mp hs
  obtain ⟨o, ho, hagrees⟩ := h.exists_queue hc
  rw [hagrees.stop_eq ho]
  exact ⟨c, o, [], _, _, hc, ho, .stops, rfl, rfl, (List.append_nil _).symm⟩

/-- An event of a loop is a turn of that loop. -/
theorem Kept.turn (h : t.Kept) (hn : e.loop? = some n) (hs : t.step? e = some t') : Turns n e t t' := by
  cases e with
  | forwarded m =>
    cases hn
    exact h.turns_forwarded hs
  | written m =>
    cases hn
    exact h.turns_written hs
  | writeFailed m =>
    cases hn
    exact h.turns_writeFailed hs
  | stopped m =>
    cases hn
    exact h.turns_stopped hs
  | _ => cases hn

/-- A turn keeps loop and queue in agreement. -/
theorem Turn.agrees {w : List OutFrame} (h : Turn n c o e w c' o') {b : ChannelBook} (hagrees : Agrees b n c o) :
    Agrees b n c' o' := by
  cases h with
  | takes f rest idle first =>
    have hreceiving : o.receiving = true := hagrees.receiving.mpr (Connection.running_of_idle idle)
    refine ⟨hagrees.home, iff_of_true hreceiving nofun, fun hr => absurd hreceiving (Bool.eq_false_iff.mp hr), ?_⟩
    rw [Connection.unwritten_writing rfl, ← first, ← Connection.unwritten_idle idle]
    exact hagrees.unparted
  | writes f inHand goesOn =>
    have hreceiving : o.receiving = true := hagrees.receiving.mpr (Connection.running_of_writing inHand)
    refine ⟨hagrees.home, iff_of_true hreceiving nofun, hagrees.idle, fun hn hmem => ?_⟩
    exact hagrees.unparted hn (List.mem_append_right _ hmem)
  | _ => exact ⟨hagrees.home, iff_of_false nofun (· rfl), fun _ => rfl, fun _ => List.not_mem_nil⟩

/-- The events of a loop keep the state in order. -/
theorem Kept.turned (h : t.Kept) (hn : e.loop? = some n) (hs : t.step? e = some t') : t'.Kept := by
  obtain ⟨c, o, w, c', o', hc, ho, hturn, hloops, hbook, -⟩ := h.turn hn hs
  have hlength : t'.book.channels.length = t.book.channels.length := by
    rw [hbook]
    exact List.length_modify ..
  have hchart : t'.book.chart = t.book.chart := by
    rw [hbook]
    rfl
  have hlists : ∀ m, t'.book.Lists m → t.book.Lists m := fun m hm => (ChannelBook.Strikes.of_chart hchart).lists hm
  refine ⟨h.tidy.strikes (.of_chart hchart) hlength, ?_, fun m d p hd hp => ?_⟩
  · rw [hloops, List.length_set, h.loops, hlength]
  · rw [hloops] at hd
    rw [hbook] at hp
    have hagrees : Agrees t.book m d p := by
      rcases getElem?_set_eq_some hd with ⟨rfl, rfl⟩ | ⟨hm, hd⟩
      · rw [ChannelBook.modify_self ho, Option.some.injEq] at hp
        exact hp ▸ hturn.agrees (h.agrees n c o hc ho)
      · exact h.agrees m d p hd ((ChannelBook.modify_ne hm).symm.trans hp)
    exact { hagrees with unparted := fun hm => hagrees.unparted (hlists m hm) }

/-! ### Events of nobody's loop -/

/-- Loops stay as they are, queues are fed at most, and names are forgotten at most, all of them in a shutdown. -/
structure Feeds (t t' : Outflow) (f : TrafficEvent) : Prop where
  loops : t'.loops = t.loops
  written : t'.written = t.written
  queues : t.book.Each (t.book.Fed f) t'.book
  strikes : t.book.Strikes t'.book
  shutDown : f = .shutDown → ∀ n, ¬ t'.book.Lists n

theorem Kept.feeds (h : t.Kept) (hn : e.loop? = none) (hopen : ∀ conn, e ≠ .opened conn) (hs : t.step? e = some t') :
    ∃ f, t.Feeds t' f := by
  have hquiet : ∀ {b : ChannelBook}, b.channels = t.book.channels → b.chart = t.book.chart →
      t.Feeds (t.setBook b) .pinged := fun hchannels hchart =>
    ⟨rfl, rfl, .of_channels (ChannelBook.Fed.refl _ _) hchannels, .of_chart hchart, nofun⟩
  cases e with
  | opened conn => exact absurd rfl (hopen conn)
  | traffic f =>
    simp only [step?, Option.ite_none_right_eq_some] at hs
    obtain ⟨hupstream, hmap⟩ := hs
    obtain ⟨traffic, htraffic, rfl⟩ := Option.map_eq_some_iff.mp hmap
    obtain ⟨hqueues, hstrikes⟩ := Traffic.fed_step h.tidy hupstream htraffic
    refine ⟨f, rfl, rfl, hqueues, hstrikes, fun hdown n hlisted => ?_⟩
    subst hdown
    cases htraffic
    exact t.book.not_lists_shutdownAll n hlisted
  | begun conn key =>
    simp only [step?] at hs
    split at hs
    · rename_i id b hbegin
      cases hs
      have hchart := ChannelBook.chart_beginJob h.tidy.ascending hbegin
      exact ⟨.pinged, hquiet (ChannelBook.channels_beginJob hbegin) hchart⟩
    · cases hs
      exact ⟨.pinged, hquiet rfl rfl⟩
  | ended conn id =>
    cases hs
    have hchannels : (t.book.endJob conn id).2.channels = t.book.channels := by
      rcases hend : t.book.endJob conn id with ⟨_ | _, b⟩
      · obtain ⟨-, rfl⟩ := ChannelBook.endJob_eq_false.mp hend
        rfl
      · obtain ⟨p, job, -, -, -, rfl⟩ := ChannelBook.endJob_eq_true.mp hend
        rfl
    exact ⟨.pinged, hquiet hchannels (ChannelBook.chart_endJob h.tidy.ascending)⟩
  | _ => cases hn

theorem Kept.fed {f : TrafficEvent} (h : t.Kept) (hfeeds : t.Feeds t' f) : t'.Kept where
  tidy := h.tidy.strikes hfeeds.strikes hfeeds.queues.length
  loops := by rw [hfeeds.loops, h.loops, hfeeds.queues.length]
  agrees n c o' hc ho' := by
    rw [hfeeds.loops] at hc
    obtain ⟨o, ho, hagrees⟩ := h.exists_queue hc
    obtain ⟨p, hp, hfed⟩ := hfeeds.queues.queue n o ho
    rw [ho', Option.some.injEq] at hp
    subst hp
    refine ⟨hagrees.home, hfed.receiving ▸ hagrees.receiving, hfed.idle hagrees.idle, fun hn => ?_⟩
    obtain ⟨more, hgain, hunwritten⟩ := c.unwritten_fed hfed
    rw [hunwritten, List.mem_append, not_or]
    refine ⟨hagrees.unparted (hfeeds.strikes.lists hn), ?_⟩
    cases hgain with
    | close shutDown listed receiving => exact absurd hn (hfeeds.shutDown shutDown n)
    | _ => simp

theorem Kept.opened (h : t.Kept) {conn : String} (hs : t.step? (.opened conn) = some t') : t'.Kept := by
  cases hs
  refine ⟨h.tidy.openChannel conn, ?_, fun n c o' hc ho' => ?_⟩
  · show (t.loops ++ [_]).length = (t.book.openChannel conn).2.channels.length
    rw [ChannelBook.length_openChannel, List.length_append, h.loops, List.length_singleton]
  · have ho' : (t.book.openChannel conn).2.channels[n]? = some o' := ho'
    rcases getElem?_concat_eq_some hc with hc | ⟨rfl, rfl⟩
    · obtain ⟨o, ho, hagrees⟩ := h.exists_queue hc
      obtain ⟨p, hp, hstill⟩ := ChannelBook.still_openChannel conn ho
      rw [ho', Option.some.injEq] at hp
      subst hp
      have hidle : o'.Idle := fun hr => hstill.queued.trans (hagrees.idle (hstill.receiving ▸ hr))
      refine ⟨hagrees.home, hstill.receiving ▸ hagrees.receiving, hidle, fun hn => ?_⟩
      rw [Connection.unwritten, hstill.queued]
      rcases ChannelBook.lists_openChannel hn with rfl | hn
      · exact absurd (List.getElem?_eq_some_iff.mp ho).1 (Nat.lt_irrefl _)
      · exact hagrees.unparted hn
    · rw [h.loops, ChannelBook.getElem?_openChannel, Option.some.injEq] at ho'
      subst ho'
      obtain ⟨-, -, hnumber, -⟩ := t.book.exists_openChannel conn
      exact ⟨hnumber.trans h.loops.symm, iff_of_true rfl nofun, fun _ => rfl, fun _ => List.not_mem_nil⟩

theorem Kept.step (h : t.Kept) (hs : t.step? e = some t') : t'.Kept := by
  cases hn : e.loop? with
  | some n => exact h.turned hn hs
  | none =>
    by_cases hopen : ∃ conn, e = .opened conn
    · obtain ⟨conn, rfl⟩ := hopen
      exact h.opened hs
    · obtain ⟨f, hfeeds⟩ := h.feeds hn (not_exists.mp hopen) hs
      exact h.fed hfeeds

theorem run?_cons : t.run? (e :: es) = (t.step? e).bind (·.run? es) := List.foldlM_cons

theorem kept_run (h : t.Kept) (hr : t.run? es = some t') : t'.Kept := by
  induction es generalizing t with
  | nil =>
    cases hr
    exact h
  | cons e es ih =>
    rw [run?_cons] at hr
    obtain ⟨u, hu, hr⟩ := Option.bind_eq_some_iff.mp hr
    exact ih (h.step hu) hr

end Outflow
end FrameStream
