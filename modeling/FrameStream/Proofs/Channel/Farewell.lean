import FrameStream.Proofs.Channel.Outflow

/-!
# The last frames of a channel

In a shutdown every channel that stands in the book is cancelled and forgotten, and a closing frame is queued for it if
there is room that nobody waits for. From then on nothing gets into its queue: its loop writes what it has in hand, what
is queued and the closing frame, in this order, and nothing else. A loop whose queue was full gets no closing frame.
-/

namespace FrameStream

/-- The loop of the channel takes a frame or writes the one it has in hand. -/
def OutflowEvent.moves (n : ChannelNumber) : OutflowEvent → Bool
  | .forwarded m => m = n
  | .written m => m = n
  | _ => false

/-- The loop of the channel fails to write or is stopped. -/
def OutflowEvent.breaks (n : ChannelNumber) : OutflowEvent → Bool
  | .writeFailed m => m = n
  | .stopped m => m = n
  | _ => false

/-- How often a loop moves to write out what it has in hand and what is queued. -/
def Connection.effort (c : Connection) (o : Outbound) : Nat := c.frame?.toList.length + 2 * o.queued.length

namespace Outflow

variable {t t' u : Outflow} {e : OutflowEvent} {es : List OutflowEvent} {n m : ChannelNumber} {c c' : Connection}
  {o o' : Outbound} {w : List OutFrame} {room : Prop} {depth : Nat}

theorem loop?_of_moves (h : e.moves n = true) : e.loop? = some n := by
  cases e <;> simp_all [OutflowEvent.moves, OutflowEvent.loop?]

/-! ## A channel that was shut down -/

/-- A cancelled channel that is forgotten, and whose loop has still to write a closing frame last if there was room for
one. -/
structure Parting (t : Outflow) (n : ChannelNumber) (room : Prop) (c : Connection) (o : Outbound) : Prop where
  loop : t.loops[n]? = some c
  queue : t.book.channels[n]? = some o
  forgotten : ¬ t.book.Lists n
  cancelled : o.cancelled = true
  last : .close ∉ (c.unwritten o).dropLast
  closing : room → c.forwarding ≠ .stopped → .close ∈ c.unwritten o

theorem writtenOn_append (h : t'.written = t.written ++ w.map fun f => (m, f)) :
    t'.writtenOn n = t.writtenOn n ++ if m = n then w else [] := by
  rw [writtenOn, h, List.filter_append, List.map_append, ← writtenOn, List.filter_map]
  by_cases hm : m = n
  · simp [Function.comp_def, hm]
  · simp [Function.comp_def, hm]

/-- What does not concern the loop of a channel that was shut down leaves its frames where they are. -/
theorem Parting.elsewhere (h : t.Parting n room c o) (hk : t.Kept) (hn : e.loop? ≠ some n)
    (hs : t.step? e = some t') :
    t'.writtenOn n = t.writtenOn n ∧ t'.loops[n]? = some c ∧ ¬ t'.book.Lists n ∧
      ∃ o', t'.book.channels[n]? = some o' ∧ o.Still o' := by
  cases hm : e.loop? with
  | some m =>
    have hmn : m ≠ n := fun heq => hn (heq ▸ hm)
    obtain ⟨d, p, w, d', p', -, -, -, hloops, hbook, hwritten⟩ := hk.turn hm hs
    refine ⟨?_, ?_, ?_, o, ?_, .refl o⟩
    · rw [writtenOn_append hwritten, if_neg hmn, List.append_nil]
    · rw [hloops, List.getElem?_set_ne hmn, h.loop]
    · rw [hbook]
      exact h.forgotten
    · rw [hbook, ChannelBook.modify_ne hmn, h.queue]
  | none =>
    by_cases hopen : ∃ conn, e = .opened conn
    · obtain ⟨conn, rfl⟩ := hopen
      cases hs
      refine ⟨rfl, ?_, fun hlisted => ?_, ChannelBook.still_openChannel conn h.queue⟩
      · exact (List.getElem?_append_left (List.getElem?_eq_some_iff.mp h.loop).1).trans h.loop
      · rcases ChannelBook.lists_openChannel hlisted with rfl | hlisted
        · exact Nat.lt_irrefl _ (List.getElem?_eq_some_iff.mp h.queue).1
        · exact h.forgotten hlisted
    · obtain ⟨f, hfeeds⟩ := hk.feeds hm (not_exists.mp hopen) hs
      obtain ⟨o', ho', hfed⟩ := hfeeds.queues.queue n o h.queue
      refine ⟨?_, hfeeds.loops ▸ h.loop, fun hlisted => h.forgotten (hfeeds.strikes.lists hlisted), o', ho',
        hfed.still h.forgotten h.cancelled⟩
      rw [writtenOn, hfeeds.written, writtenOn]

/-- A loop that is left alone writes the first frame it has to write, or takes the next one; a closing frame is the last
it writes. -/
theorem Turn.progress (h : Turn n c o e w c' o') (he : e.breaks n = false)
    (hlast : .close ∉ (c.unwritten o).dropLast) :
    w ++ c'.unwritten o' = c.unwritten o ∧ c'.effort o' = c.effort o - 1 ∧ e.moves n = true ∧
      o'.cancelled = o.cancelled ∧ (c'.forwarding ≠ .stopped → c.forwarding ≠ .stopped ∧ .close ∉ w) := by
  cases h with
  | takes f rest idle first =>
    refine ⟨?_, ?_, decide_eq_true rfl, rfl, fun _ => ⟨Connection.running_of_idle idle, List.not_mem_nil⟩⟩
    · rw [List.nil_append, Connection.unwritten_writing rfl, Connection.unwritten_idle idle, first]
    · simp only [Connection.effort, Connection.frame?, idle, first, Option.toList_some, Option.toList_none,
        List.length_cons, List.length_nil]
      omega
  | ends idle empty =>
    refine ⟨?_, ?_, decide_eq_true rfl, rfl, fun hrunning => absurd rfl hrunning⟩
    · rw [Connection.unwritten_idle idle, empty]
      rfl
    · simp [Connection.effort, Connection.frame?, idle, empty, Outbound.dropReceiver]
  | writes f inHand goesOn =>
    refine ⟨?_, ?_, decide_eq_true rfl, rfl, fun _ => ⟨Connection.running_of_writing inHand, ?_⟩⟩
    · rw [Connection.unwritten_idle rfl, Connection.unwritten_writing inHand, List.singleton_append]
    · simp only [Connection.effort, Connection.frame?, inHand, Option.toList_some, Option.toList_none,
        List.length_cons, List.length_nil]
      omega
    · rw [List.mem_singleton]
      exact goesOn.symm
  | parts inHand =>
    have hempty : o.queued = [] := by
      rw [Connection.unwritten_writing inHand] at hlast
      cases hq : o.queued with
      | nil => rfl
      | cons f rest =>
        rw [hq, List.dropLast_cons_cons] at hlast
        exact absurd List.mem_cons_self hlast
    refine ⟨?_, ?_, decide_eq_true rfl, rfl, fun hrunning => absurd rfl hrunning⟩
    · rw [Connection.unwritten_writing inHand, hempty]
      rfl
    · simp [Connection.effort, Connection.frame?, inHand, hempty, Outbound.dropReceiver]
  | fails f inHand => simp [OutflowEvent.breaks] at he
  | stops => simp [OutflowEvent.breaks] at he

theorem not_mem_dropLast_right {f : OutFrame} {fs : List OutFrame} (h : f ∉ (w ++ fs).dropLast) : f ∉ fs.dropLast := by
  intro hmem
  have hne : fs ≠ [] := by
    rintro rfl
    cases hmem
  apply h
  rw [List.dropLast_append_of_ne_nil hne]
  exact List.mem_append_right w hmem

/-- A move of the loop leaves what is written and what is still to be written together the same, and leaves one move
less to be made. -/
theorem Parting.turned (h : t.Parting n room c o) (hk : t.Kept) (hn : e.loop? = some n) (he : e.breaks n = false)
    (hs : t.step? e = some t') :
    ∃ c' o', t'.Parting n room c' o' ∧ t'.writtenOn n ++ c'.unwritten o' = t.writtenOn n ++ c.unwritten o ∧
      c'.effort o' = c.effort o - 1 ∧ e.moves n = true := by
  obtain ⟨d, p, w, c', o', hd, hp, hturn, hloops, hbook, hwritten⟩ := hk.turn hn hs
  rw [h.loop, Option.some.injEq] at hd
  rw [h.queue, Option.some.injEq] at hp
  subst hd hp
  obtain ⟨hframes, heffort, hmoves, hcancelled, hrunning⟩ := hturn.progress he h.last
  refine ⟨c', o', ?_, ?_, heffort, hmoves⟩
  · constructor
    · rw [hloops]
      exact List.getElem?_set_self (List.getElem?_eq_some_iff.mp h.loop).1
    · rw [hbook]
      exact ChannelBook.modify_self h.queue
    · rw [hbook]
      exact h.forgotten
    · rw [hcancelled]
      exact h.cancelled
    · have hlast := h.last
      rw [← hframes] at hlast
      exact not_mem_dropLast_right hlast
    · intro hroom hrun
      obtain ⟨hbefore, hnot⟩ := hrunning hrun
      have hmem := h.closing hroom hbefore
      rw [← hframes] at hmem
      exact (List.mem_append.mp hmem).resolve_left hnot
  · rw [writtenOn_append hwritten, if_pos rfl, List.append_assoc, hframes]

theorem Parting.step (h : t.Parting n room c o) (hk : t.Kept) (he : e.breaks n = false) (hs : t.step? e = some t') :
    ∃ c' o', t'.Parting n room c' o' ∧ t'.writtenOn n ++ c'.unwritten o' = t.writtenOn n ++ c.unwritten o ∧
      c'.effort o' = c.effort o - if e.moves n then 1 else 0 := by
  by_cases hn : e.loop? = some n
  · obtain ⟨c', o', hparting, hframes, heffort, hmoves⟩ := h.turned hk hn he hs
    exact ⟨c', o', hparting, hframes, by rw [heffort, if_pos hmoves]⟩
  · obtain ⟨hwritten, hloop, hforgotten, o', ho', hstill⟩ := h.elsewhere hk hn hs
    have hunwritten : c.unwritten o' = c.unwritten o := by
      rw [Connection.unwritten, hstill.queued, Connection.unwritten]
    have hidle : ¬ e.moves n = true := fun hmoves => hn (loop?_of_moves hmoves)
    refine ⟨c, o', ⟨hloop, ho', hforgotten, hstill.cancelled h.cancelled, ?_, ?_⟩, ?_, ?_⟩
    · exact hunwritten ▸ h.last
    · exact hunwritten ▸ h.closing
    · rw [hwritten, hunwritten]
    · rw [if_neg hidle, Nat.sub_zero, Connection.effort, hstill.queued, Connection.effort]

/-- What is written and what is still to be written stays the same together in every run in which the loop is left
alone; every move of the loop brings it nearer to its end. -/
theorem Parting.run (h : t.Parting n room c o) (hk : t.Kept) (hes : ∀ e ∈ es, e.breaks n = false)
    (hr : t.run? es = some t') :
    ∃ c' o', t'.Parting n room c' o' ∧ t'.writtenOn n ++ c'.unwritten o' = t.writtenOn n ++ c.unwritten o ∧
      c'.effort o' = c.effort o - es.countP (·.moves n) := by
  induction es generalizing t c o with
  | nil =>
    cases hr
    exact ⟨c, o, h, rfl, rfl⟩
  | cons e es ih =>
    rw [run?_cons] at hr
    obtain ⟨u, hu, hr⟩ := Option.bind_eq_some_iff.mp hr
    obtain ⟨he, hes⟩ := List.forall_mem_cons.mp hes
    obtain ⟨d, p, hparting, hframes, heffort⟩ := h.step hk he hu
    obtain ⟨c', o', hparting', hframes', heffort'⟩ := ih hparting (hk.step hu) hes hr
    refine ⟨c', o', hparting', hframes'.trans hframes, ?_⟩
    rw [heffort', heffort, List.countP_cons, Nat.sub_sub, Nat.add_comm]

/-- A loop that has something to write can move. -/
theorem Kept.exists_move (h : t.Kept) (hc : t.loops[n]? = some c) (ho : t.book.channels[n]? = some o)
    (hne : c.unwritten o ≠ []) : ∃ e, e.moves n = true ∧ (t.step? e).isSome := by
  have hagrees := h.agrees n c o hc ho
  cases hf : c.forwarding with
  | idle =>
    rw [Connection.unwritten_idle hf] at hne
    obtain ⟨f, rest, hfirst⟩ := List.exists_cons_of_ne_nil hne
    refine ⟨.forwarded n, decide_eq_true rfl, ?_⟩
    have htake : t.book.take? c.channel = some (f, t.book.modify n fun _ => { o with queued := rest }) := by
      simp only [ChannelBook.take?, ChannelBook.channel?, hagrees.home, ho,
        Outbound.take?_eq_some.mpr ⟨rest, hfirst, rfl⟩, Option.map_some]
    simp only [step?, hc, Option.bind_some, Connection.forward?, hf, htake, Option.map_some, Option.isSome_some]
  | writing f =>
    refine ⟨.written n, decide_eq_true rfl, ?_⟩
    simp only [step?, hc, Option.bind_some, Connection.frame?, hf, Option.map_some, Option.isSome_some]
  | stopped =>
    have hr : o.receiving = false := by
      rw [Bool.eq_false_iff]
      exact fun hr => hagrees.receiving.mp hr hf
    refine absurd ?_ hne
    rw [Connection.unwritten, Connection.frame?, hf, hagrees.idle hr]
    rfl

/-! ## The shutdown -/

/-- The loop of a channel has come from one moment to a later one in so many moves, and of the frames it was to write it
has written the first ones and has the others still to write. As long as one is left it can move; after two moves for
each none is left; and after a closing frame it does not run any more. -/
structure WritesOut (t t' : Outflow) (n : ChannelNumber) (frames : List OutFrame) (moves : Nat) : Prop where
  written : t'.writtenOn n ++ t'.unwrittenOn n = t.writtenOn n ++ frames
  goesOn : t'.unwrittenOn n ≠ [] → ∃ e, e.moves n = true ∧ (t'.step? e).isSome
  all : 2 * frames.length ≤ moves → t'.unwrittenOn n = []
  stops : .close ∈ frames → t'.unwrittenOn n = [] → ¬ t'.Running n

theorem unwrittenOn_eq (hc : t.loops[n]? = some c) (ho : t.book.channels[n]? = some o) :
    t.unwrittenOn n = c.unwritten o := by
  simp only [unwrittenOn, hc, ho]

theorem Parting.writesOut (h : t.Parting n (.close ∈ c.unwritten o) c o) (hk : t.Kept)
    (hes : ∀ e ∈ es, e.breaks n = false) (hr : t.run? es = some t') :
    t.WritesOut t' n (c.unwritten o) (es.countP (·.moves n)) := by
  obtain ⟨c', o', hparting, hframes, heffort⟩ := h.run hk hes hr
  have hunwritten := unwrittenOn_eq hparting.loop hparting.queue
  constructor
  · rw [hunwritten, hframes]
  · intro hne
    rw [hunwritten] at hne
    exact (kept_run hk hr).exists_move hparting.loop hparting.queue hne
  · intro hmoves
    have hle : c.effort o ≤ 2 * (c.unwritten o).length := by
      rw [Connection.effort, Connection.unwritten, List.length_append]
      omega
    have hzero : c'.frame?.toList.length + 2 * o'.queued.length = 0 := by
      rw [← Connection.effort, heffort]
      omega
    rw [hunwritten, ← List.length_eq_zero_iff, Connection.unwritten, List.length_append]
    omega
  · rintro hclose hempty ⟨d, hd, hrunning⟩
    rw [hparting.loop, Option.some.injEq] at hd
    subst hd
    have hmem := hparting.closing hclose hrunning
    rw [← hunwritten, hempty] at hmem
    cases hmem

theorem queued_farewell (hr : o.receiving = true) :
    (o.offer .close).cancel.dropSender.queued = o.queued ++ if o.hasRoom then [.close] else [] := by
  unfold Outbound.offer
  cases hroom : o.hasRoom with
  | true =>
    rw [hr]
    rfl
  | false =>
    rw [hr]
    exact (List.append_nil _).symm

theorem parting_shutdownAll (h : t.Kept) (hs : t.step? (.traffic .shutDown) = some u) (hn : t.book.Lists n)
    (hc : t.loops[n]? = some c) (ho : t.book.channels[n]? = some o) (hrunning : c.forwarding ≠ .stopped) :
    ∃ p, c.unwritten p = (c.unwritten o ++ if o.hasRoom then [.close] else []) ∧
      u.Parting n (.close ∈ c.unwritten p) c p := by
  cases hs
  have hagrees := h.agrees n c o hc ho
  have heach := ChannelBook.each_modifyOpen h.tidy.nodup fun o => (o.offer .close).cancel.dropSender
  obtain ⟨p, hp, heq⟩ := heach.queue n o ho
  rw [if_pos (h.tidy.lists_iff.mp hn)] at heq
  have hunwritten : c.unwritten p = c.unwritten o ++ if o.hasRoom then [.close] else [] := by
    rw [Connection.unwritten, heq, queued_farewell (hagrees.receiving.mpr hrunning), ← List.append_assoc,
      Connection.unwritten]
  refine ⟨p, hunwritten, hc, hp, t.book.not_lists_shutdownAll n, by rw [heq]; rfl, ?_, fun hmem _ => hmem⟩
  have hnone := hagrees.unparted hn
  rw [hunwritten]
  split
  · rw [List.dropLast_concat]
    exact hnone
  · rw [List.append_nil]
    exact fun hmem => hnone ((List.dropLast_sublist _).subset hmem)

/-- After a shutdown no channel stands in the book and each that did is cancelled. A loop that runs writes what it had
in hand and what was queued, none of it a closing frame, then a closing frame if there was room for one, and nothing
else. -/
theorem shutDown_writesOut (h : (start depth).run? es = some t) :
    ∃ u, t.step? (.traffic .shutDown) = some u ∧ u.book.entries = [] ∧
      ∀ conn entry, t.book.entries.get? conn = some entry → u.book.Cancelled entry.channel ∧
        ∃ o, t.book.channels[entry.channel]? = some o ∧ (t.Running entry.channel →
          .close ∉ t.unwrittenOn entry.channel ∧
          ∀ fs v, u.run? fs = some v → (∀ f ∈ fs, f.breaks entry.channel = false) →
            u.WritesOut v entry.channel (t.unwrittenOn entry.channel ++ if o.hasRoom then [.close] else [])
              (fs.countP (·.moves entry.channel))) := by
  have hk := kept_run (kept_start depth) h
  refine ⟨_, rfl, rfl, fun conn entry he => ?_⟩
  have hget : t.book.chart.get? conn = some entry.channel := by rw [t.book.get?_chart, he, Option.map_some]
  have hlisted : t.book.Lists entry.channel := ⟨conn, hget⟩
  have hn := hk.tidy.opened _ hlisted
  have ho := List.getElem?_eq_getElem hn
  refine ⟨Custody.cancelled_shutdownAll hget hn, _, ho, fun ⟨c, hc, hrunning⟩ => ?_⟩
  obtain ⟨p, hunwritten, hparting⟩ := parting_shutdownAll hk rfl hlisted hc ho hrunning
  rw [unwrittenOn_eq hc ho, ← hunwritten]
  exact ⟨(hk.agrees _ c _ hc ho).unparted hlisted, fun fs v hr hfs =>
    hparting.writesOut (hk.step (e := .traffic .shutDown) rfl) hfs hr⟩

/-- Two messages are queued and there is room for a third frame. -/
theorem shutDown_writesOut_room : ∃ t u v, (start 3).run? [.opened "c", .traffic (.sent 0 (.accepted "a")),
      .traffic (.sent 0 (.accepted "b"))] = some t ∧
    t.step? (.traffic .shutDown) = some u ∧
    u.run? [.forwarded 0, .written 0, .forwarded 0, .written 0, .forwarded 0, .written 0] = some v ∧
    v.writtenOn 0 = [.text (Message.accepted "a").text, .text (Message.accepted "b").text, .close] ∧
    ¬ v.Running 0 := by
  have hrun : ∃ t, (start 3).run? [.opened "c", .traffic (.sent 0 (.accepted "a")),
      .traffic (.sent 0 (.accepted "b"))] = some t ∧ t.book.entries.get? "c" = some { channel := 0 } ∧ t.Running 0 ∧
      t.unwrittenOn 0 = [.text (Message.accepted "a").text, .text (Message.accepted "b").text] ∧
      (∃ o, t.book.channels[0]? = some o ∧ o.hasRoom = true) ∧
      ∃ u v, t.step? (.traffic .shutDown) = some u ∧ u.writtenOn 0 = [] ∧
        u.run? [.forwarded 0, .written 0, .forwarded 0, .written 0, .forwarded 0, .written 0] = some v :=
    ⟨_, rfl, rfl, ⟨_, rfl, nofun⟩, rfl, ⟨_, rfl, rfl⟩, _, _, rfl, rfl, rfl⟩
  obtain ⟨t, hrun, hentry, hrunning, hunwritten, ⟨o, ho, hroom⟩, u, v, hdown, hnone, hmoves⟩ := hrun
  obtain ⟨u', hdown', -, hall⟩ := shutDown_writesOut hrun
  rw [hdown, Option.some.injEq] at hdown'
  subst hdown'
  obtain ⟨-, o', ho', hwrites⟩ := hall "c" _ hentry
  rw [ho, Option.some.injEq] at ho'
  subst ho'
  have hv := (hwrites hrunning).2 _ v hmoves (by decide)
  rw [hunwritten, hroom] at hv
  have hempty := hv.all (by decide)
  have hwritten := hv.written
  rw [hempty, hnone, List.append_nil] at hwritten
  exact ⟨t, u, v, hrun, hdown, hmoves, hwritten, hv.stops (by decide) hempty⟩

/-- The queue has one place, and it is taken: in a shutdown the loop writes the message, then it has nothing to write
and nothing can come, so it stops without a closing frame. -/
theorem farewell_lost_if_full : ∃ t u v, (start 1).run? [.opened "c", .traffic (.sent 0 (.accepted "a"))] = some t ∧
    t.book.entries.get? "c" = some { channel := 0 } ∧ t.Running 0 ∧
    t.step? (.traffic .shutDown) = some u ∧
    u.run? [.forwarded 0, .written 0, .traffic (.dropped 0), .forwarded 0] = some v ∧
    v.writtenOn 0 = [.text (Message.accepted "a").text] ∧ v.unwrittenOn 0 = [] ∧ ¬ v.Running 0 := by
  refine ⟨_, _, _, rfl, rfl, ⟨_, rfl, nofun⟩, rfl, rfl, rfl, rfl, ?_⟩
  rintro ⟨c, hc, hrunning⟩
  cases hc
  exact hrunning rfl

end Outflow
end FrameStream
