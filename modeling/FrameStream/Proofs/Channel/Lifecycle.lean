import FrameStream.Proofs.Channel.Custody

/-!
# The life of a channel

An event about one channel touches no other: neither its queue nor its slot. A channel that is cancelled stays so, and
closing by name says whether there was a channel to forget, which is the case once for every channel that was opened.
-/

namespace FrameStream
namespace Custody

variable {c c' : Custody} {e : CustodyEvent} {es : List CustodyEvent} {n : ChannelNumber} {conn other : String}
  {depth : Nat}

/-! ## Other channels -/

/-- The entry and the queue of the channel under a name stay as they are. -/
structure Untouched (c c' : Custody) (other : String) : Prop where
  entry : c'.book.entries.get? other = c.book.entries.get? other
  queue : ∀ n : ChannelNumber, c.names[n]? = some other → c'.book.channels[n]? = c.book.channels[n]?

theorem Kept.untouched_forget (h : c.Kept) (hne : other ≠ conn) : c.Untouched (c.forget conn) other where
  entry := by
    show (c.book.close conn).2.entries.get? other = _
    rw [c.book.get?_close, if_neg hne]
  queue n hn := by
    cases hget : c.book.entries.get? conn with
    | none =>
      show (c.book.close conn).2.channels[n]? = _
      simp only [ChannelBook.close, hget]
    | some e =>
      have hhome := h.home conn e.channel (by rw [c.book.get?_chart, hget, Option.map_some])
      have hother : e.channel ≠ n := by
        intro heq
        rw [heq, hn] at hhome
        exact hne (Option.some.inj hhome)
      show (c.book.close conn).2.channels[n]? = _
      simp only [ChannelBook.close, hget]
      exact ChannelBook.modify_ne hother

theorem untouched_leave (hname : c.names[n]? = some conn) (hs : c.leave? n = some c') (hne : other ≠ conn) :
    c.Untouched c' other := by
  obtain ⟨-, rfl⟩ := leave?_eq_some.mp hs
  refine ⟨rfl, fun m hm => ChannelBook.modify_ne fun heq => hne ?_⟩
  rw [heq, hm] at hname
  exact Option.some.inj hname

theorem untouched_begun {key : String} (hs : c.step? (.begun conn key) = some c') (hne : other ≠ conn) :
    c.Untouched c' other := by
  simp only [step?] at hs
  split at hs
  · rename_i id book hbegin
    cases hs
    obtain ⟨e, -, -, -, rfl⟩ := ChannelBook.beginJob_eq_ok.mp hbegin
    exact ⟨NameTable.get?_insert_of_ne hne _ _, fun _ _ => rfl⟩
  · cases hs
    exact ⟨rfl, fun _ _ => rfl⟩

theorem untouched_ended {id : JobId} (hs : c.step? (.ended conn id) = some c') (hne : other ≠ conn) :
    c.Untouched c' other := by
  cases hs
  rcases hend : c.book.endJob conn id with ⟨_ | _, book⟩
  · obtain ⟨-, rfl⟩ := ChannelBook.endJob_eq_false.mp hend
    exact ⟨rfl, fun _ _ => rfl⟩
  · obtain ⟨e, job, -, -, -, rfl⟩ := ChannelBook.endJob_eq_true.mp hend
    exact ⟨NameTable.get?_insert_of_ne hne _ _, fun _ _ => rfl⟩

/-- An event about one channel leaves all others alone. -/
theorem Kept.untouched (h : c.Kept) (hsubject : c.subject? e = some conn) (hs : c.step? e = some c')
    (hne : other ≠ conn) : c.Untouched c' other := by
  cases e with
  | closed conn' =>
    cases hsubject
    cases hs
    obtain ⟨hentry, hqueue⟩ := h.untouched_forget hne
    exact ⟨hentry, hqueue⟩
  | guardClosed n => exact untouched_leave hsubject hs hne
  | guardDropped n => exact untouched_leave hsubject hs hne
  | removed n =>
    obtain ⟨conn', hname, -, rfl⟩ := step?_removed hs
    obtain rfl : conn' = conn := Option.some.inj (hname.symm.trans hsubject)
    obtain ⟨hentry, hqueue⟩ := h.untouched_forget hne
    exact ⟨hentry, hqueue⟩
  | begun conn' key =>
    cases hsubject
    exact untouched_begun hs hne
  | ended conn' id =>
    cases hsubject
    exact untouched_ended hs hne
  | opened conn' => cases hsubject
  | cancelled n => cases hsubject
  | pinged => cases hsubject
  | shutDown => cases hsubject

/-! ## Cancelled channels -/

theorem cancelled_step (h : c.book.Cancelled n) (hs : c.step? e = some c') : c'.book.Cancelled n := by
  cases e with
  | opened conn =>
    simp only [step?, Option.ite_none_left_eq_some, Option.some.injEq] at hs
    obtain ⟨-, rfl⟩ := hs
    exact h.opened conn
  | closed conn =>
    cases hs
    exact h.calm (c.book.calm_close conn)
  | guardClosed m =>
    obtain ⟨-, rfl⟩ := leave?_eq_some.mp hs
    exact h.calm (c.book.calm_cancel m)
  | guardDropped m =>
    obtain ⟨-, rfl⟩ := leave?_eq_some.mp hs
    exact h.calm (c.book.calm_cancel m)
  | removed m =>
    obtain ⟨conn, -, -, rfl⟩ := step?_removed hs
    exact h.calm (c.book.calm_close conn)
  | cancelled m =>
    cases hs
    exact h.calm (c.book.calm_cancel m)
  | begun conn key =>
    simp only [step?] at hs
    split at hs
    · rename_i id book hbegin
      cases hs
      exact h.calm (.of_channels (ChannelBook.channels_beginJob hbegin))
    · cases hs
      exact h
  | ended conn id =>
    cases hs
    exact h.calm (c.book.calm_endJob conn id)
  | pinged =>
    cases hs
    exact h.calm c.book.calm_pingAll
  | shutDown =>
    cases hs
    exact h.calm c.book.calm_shutdownAll

theorem cancelled_run (h : c.book.Cancelled n) (hr : c.run? es = some c') : c'.book.Cancelled n := by
  induction es generalizing c with
  | nil =>
    cases hr
    exact h
  | cons e es ih =>
    rw [run?_cons] at hr
    obtain ⟨d, hd, hr⟩ := Option.bind_eq_some_iff.mp hr
    exact ih (cancelled_step h hd) hr

/-- A guard that is closed and has its channel forgotten right away does what closing a guard in one step does. -/
theorem run?_closeGuard (hname : c.names[n]? = some conn) (hheld : c.guards[n]? = some .held) :
    ∃ c', c.run? [.guardClosed n, .removed n] = some c' ∧ c'.book = c.book.closeGuard conn n := by
  have hn := (List.getElem?_eq_some_iff.mp hheld).1
  have hleave : c.step? (.guardClosed n) = some { c with
      book := c.book.cancel n, guards := c.guards.set n .leaving } := leave?_eq_some.mpr ⟨hheld, rfl⟩
  have hguard : (c.guards.set n .leaving)[n]? = some .leaving := List.getElem?_set_self hn
  rw [run?_cons, hleave, Option.bind_some, run?_cons]
  simp only [step?, hname, hguard, Option.bind_some]
  exact ⟨_, rfl, rfl⟩

/-! ## Every run -/

/-- Closing by name says whether there is a channel under the name, and does nothing if there is none. -/
theorem closed_says (c : Custody) (conn : String) : ∃ c' ok, c.step? (.closed conn) = some c' ∧
    c'.closings = c.closings ++ [(conn, ok)] ∧ (ok = true ↔ c.book.registered conn = true) ∧
      (ok = false → c'.book = c.book ∧ c'.removed = c.removed) := by
  refine ⟨_, _, rfl, rfl, ?_, fun hno => ?_⟩
  · unfold ChannelBook.close ChannelBook.registered
    cases c.book.entries.get? conn <;> simp
  · cases hget : c.book.entries.get? conn with
    | none => simp [forget, ChannelBook.close, hget]
    | some e => simp [ChannelBook.close, hget] at hno

theorem channel_lifecycle (h : (start depth).run? es = some c) :
    (∀ n < c.book.channels.length, (∃ conn, c.book.chart.get? conn = some n) ∨ c.book.Cancelled n) ∧
    (∀ n, c.book.Cancelled n → ∀ fs c', c.run? fs = some c' → c'.book.Cancelled n) ∧
    (∀ n g, c.guards[n]? = some g → g ≠ .held → c.book.Cancelled n) ∧
    (.leaving ∉ c.guards → ∀ conn n, c.book.chart.get? conn = some n → c.guards[n]? = some .held) ∧
    ((c.closings.filter (·.2)).Nodup ∧ ∀ conn, ∃ c' ok, c.step? (.closed conn) = some c' ∧
      c'.closings = c.closings ++ [(conn, ok)] ∧ (ok = true ↔ c.book.registered conn = true) ∧
        (ok = false → c'.book = c.book ∧ c'.removed = c.removed)) ∧
    (c.book.count + c.removed.length = c.book.channels.length ∧ c.removed.Nodup) ∧
    ∀ e c' conn, c.subject? e = some conn → c.step? e = some c' → ∀ other, other ≠ conn → c.Untouched c' other := by
  have hkept := kept_run (kept_start depth) h
  refine ⟨fun n hn => ?_, fun n hc fs c' hr => cancelled_run hc hr, hkept.left, fun hnone conn n hget => ?_,
    ⟨hkept.closedOnce, c.closed_says⟩, ⟨?_, hkept.once⟩,
    fun e c' conn hsubject hs other hne => hkept.untouched hsubject hs hne⟩
  · have hname := List.getElem?_eq_getElem (hkept.channels ▸ hn)
    by_cases hmem : n ∈ c.removed
    · exact .inr (hkept.forgotten n hmem)
    · exact .inl ⟨_, hkept.listed n _ hname hmem⟩
  · have hlt := (List.getElem?_eq_some_iff.mp (hkept.home conn n hget)).1
    obtain ⟨g, hguard⟩ : ∃ g, c.guards[n]? = some g := ⟨_, List.getElem?_eq_getElem (hkept.guards.symm ▸ hlt)⟩
    rw [hguard]
    cases g with
    | held => rfl
    | leaving => exact absurd (List.mem_of_getElem? hguard) hnone
    | gone => exact absurd (hkept.gone n hguard) (hkept.away conn n hget)
  · rw [← c.book.length_chart, hkept.count, hkept.channels]

/-- The guard of the first channel is dropped, its name is closed before the guard gets to it, and then everything is
shut down. -/
theorem channel_lifecycle_overtaken : ∃ c, (start 4).run? [.opened "a", .opened "b", .begun "a" "k", .guardDropped 0,
      .closed "a", .removed 0, .closed "a", .shutDown] = some c ∧
    c.closings = [("a", true), ("a", false)] ∧ c.removed = [0, 1] ∧ c.book.count + c.removed.length = 2 ∧
    ∀ fs c', c.run? fs = some c' → c'.book.Cancelled 0 := by
  have hrun : ∃ c, (start 4).run? [.opened "a", .opened "b", .begun "a" "k", .guardDropped 0, .closed "a", .removed 0,
        .closed "a", .shutDown] = some c ∧
      c.closings = [("a", true), ("a", false)] ∧ c.removed = [0, 1] ∧ c.book.channels.length = 2 ∧ c.book.Cancelled 0 :=
    ⟨_, rfl, rfl, rfl, rfl, _, rfl, rfl⟩
  obtain ⟨c, hrun, hclosings, hremoved, hlength, hcancelled⟩ := hrun
  obtain ⟨-, hstays, -, -, -, ⟨hcount, -⟩, -⟩ := channel_lifecycle hrun
  exact ⟨c, hrun, hclosings, hremoved, hcount.trans hlength, fun fs c' hr => hstays 0 hcancelled fs c' hr⟩

end Custody
end FrameStream
