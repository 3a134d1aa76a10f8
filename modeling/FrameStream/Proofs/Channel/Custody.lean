import Mathlib.Data.List.Nodup
import FrameStream.Proofs.Channel.Steps

/-!
# Channels and their guards

Whoever opens a channel holds its guard. A guard that is closed or dropped cancels its channel at once and has it
forgotten in a step of its own, which may come much later; meanwhile the channel can be closed by name, cancelled, or
forgotten with all others. `Custody` is the book of channels with a record of the names under which channels were
opened, of their guards, of what closing by name said and of the channels that were forgotten. Every channel is opened
under a new name.

Nothing leaks and nothing is forgotten twice: a channel is in the book or cancelled, the book has as many entries as
channels were opened and not forgotten, and when all guards have done their work it has those whose guards are held.
-/

namespace FrameStream

/-- The guard of a channel. -/
inductive Guard where
  | held
  /-- It was closed or dropped, and the channel is still to be forgotten by it. -/
  | leaving
  | gone
  deriving DecidableEq, Repr

/-- What happens to channels and guards. -/
inductive CustodyEvent where
  | opened (conn : String)
  | closed (conn : String)
  /-- A guard is closed or dropped, and cancels its channel. -/
  | guardClosed (n : ChannelNumber)
  | guardDropped (n : ChannelNumber)
  /-- The channel under the name of a guard that was closed or dropped is forgotten. -/
  | removed (n : ChannelNumber)
  /-- A channel is cancelled by whoever writes out its frames. -/
  | cancelled (n : ChannelNumber)
  | begun (conn key : String)
  | ended (conn : String) (id : JobId)
  | pinged
  | shutDown
  deriving DecidableEq, Repr

/-- A book of channels and a record of how they came and went. -/
structure Custody where
  book : ChannelBook
  /-- The names under which the channels were opened, in order. -/
  names : List String := []
  guards : List Guard := []
  /-- What closing by name said, in order. -/
  closings : List (String × Bool) := []
  /-- The channels that were forgotten, in order. -/
  removed : List ChannelNumber := []

namespace Custody

def start (depth : Nat) : Custody := { book := .ofDepth depth }

/-- The channel under a name is closed, and forgotten if there is one. -/
def forget (c : Custody) (conn : String) : Custody :=
  { c with
    book := (c.book.close conn).2
    removed := c.removed ++ ((c.book.entries.get? conn).map (·.channel)).toList }

/-- A guard that is held cancels its channel. -/
def leave? (c : Custody) (n : ChannelNumber) : Option Custody :=
  if c.guards[n]? = some .held then some { c with book := c.book.cancel n, guards := c.guards.set n .leaving } else none

def step? (c : Custody) : CustodyEvent → Option Custody
  | .opened conn =>
    if conn ∈ c.names then none
    else some { c with
      book := (c.book.openChannel conn).2
      names := c.names ++ [conn]
      guards := c.guards ++ [.held] }
  | .closed conn => some { c.forget conn with closings := c.closings ++ [(conn, (c.book.close conn).1)] }
  | .guardClosed n => c.leave? n
  | .guardDropped n => c.leave? n
  | .removed n =>
    match c.names[n]?, c.guards[n]? with
    | some conn, some .leaving => some { c.forget conn with guards := c.guards.set n .gone }
    | _, _ => none
  | .cancelled n => some { c with book := c.book.cancel n }
  | .begun conn key =>
    match c.book.beginJob conn key with
    | .ok (_, book) => some { c with book }
    | .error _ => some c
  | .ended conn id => some { c with book := (c.book.endJob conn id).2 }
  | .pinged => some { c with book := c.book.pingAll }
  | .shutDown => some { c with
      book := c.book.shutdownAll
      removed := c.removed ++ c.book.entries.map (·.2.channel) }

def run? (c : Custody) (es : List CustodyEvent) : Option Custody := es.foldlM step? c

/-- The name of the one channel that an event is about. -/
def subject? (c : Custody) : CustodyEvent → Option String
  | .closed conn => some conn
  | .guardClosed n => c.names[n]?
  | .guardDropped n => c.names[n]?
  | .removed n => c.names[n]?
  | .begun conn _ => some conn
  | .ended conn _ => some conn
  | _ => none

end Custody

namespace ChannelBook

/-! ## Which channel stands under which name -/

/-- The channel under each name. -/
def chart (b : ChannelBook) : NameTable ChannelNumber := NameTable.mapValues (·.channel) b.entries

variable {b b' : ChannelBook} {conn key : String} {n : ChannelNumber} {id : JobId}

theorem get?_chart (b : ChannelBook) (conn : String) : b.chart.get? conn = (b.entries.get? conn).map (·.channel) :=
  NameTable.get?_mapValues _ conn b.entries

theorem length_chart (b : ChannelBook) : b.chart.length = b.count := List.length_map _

theorem chart_openChannel (b : ChannelBook) (conn : String) :
    (b.openChannel conn).2.chart = NameTable.insert conn b.channels.length b.chart := by
  rw [chart, entries_openChannel]
  exact NameTable.mapValues_insert _ conn _ b.entries

theorem chart_close (b : ChannelBook) (conn : String) : (b.close conn).2.chart = NameTable.erase conn b.chart := by
  unfold close
  cases he : b.entries.get? conn with
  | some e => exact NameTable.mapValues_erase _ conn b.entries
  | none =>
    refine (NameTable.erase_of_not_mem ?_).symm
    rw [chart, NameTable.names_mapValues]
    exact NameTable.not_mem_names he

/-- An entry that is replaced by one of the same channel leaves the channels where they stand. -/
theorem chart_insert {e e' : BookEntry} (hb : b.chart.Ascending) (he : b.entries.get? conn = some e)
    (hentries : b'.entries = b.entries.insert conn e') (hchannel : e'.channel = e.channel) : b'.chart = b.chart := by
  have hget : b.chart.get? conn = some e'.channel := by rw [get?_chart, he, hchannel, Option.map_some]
  rw [chart, hentries, NameTable.mapValues_insert]
  exact NameTable.insert_eq_self hb hget

theorem chart_beginJob (hb : b.chart.Ascending) (h : b.beginJob conn key = .ok (id, b')) : b'.chart = b.chart := by
  obtain ⟨e, he, -, -, rfl⟩ := beginJob_eq_ok.mp h
  exact chart_insert hb he rfl rfl

theorem chart_endJob (hb : b.chart.Ascending) : (b.endJob conn id).2.chart = b.chart := by
  rcases hend : b.endJob conn id with ⟨_ | _, b'⟩
  · obtain ⟨-, rfl⟩ := endJob_eq_false.mp hend
    rfl
  · obtain ⟨e, job, he, -, -, rfl⟩ := endJob_eq_true.mp hend
    exact chart_insert hb he rfl rfl

theorem chart_pingAll (b : ChannelBook) : b.pingAll.chart = b.chart := by
  rw [chart, pingAll, entries_modifyOpen, chart]

/-- The channels of the entries are those that stand under a name. -/
theorem mem_channels (hb : b.chart.Ascending) :
    n ∈ b.entries.map (·.2.channel) ↔ ∃ conn, b.chart.get? conn = some n := by
  constructor
  · intro hn
    obtain ⟨e, he, rfl⟩ := List.mem_map.mp hn
    exact ⟨e.1, NameTable.get?_of_mem hb (List.mem_map_of_mem he)⟩
  · rintro ⟨conn, hn⟩
    rw [b.get?_chart] at hn
    obtain ⟨e, he, rfl⟩ := Option.map_eq_some_iff.mp hn
    exact List.mem_map_of_mem (NameTable.mem_of_get? he)

/-- Where no channel stands under two names, the entries stand for different channels. -/
theorem nodup_channels (hb : b.chart.Ascending)
    (honce : ∀ conn conn' n, b.chart.get? conn = some n → b.chart.get? conn' = some n → conn = conn') :
    (b.entries.map (·.2.channel)).Nodup := by
  have hnames : b.entries.Pairwise fun e e' => e.1 < e'.1 := by
    rw [NameTable.Ascending, chart, NameTable.names_mapValues] at hb
    exact List.pairwise_map.mp hb
  refine List.pairwise_map.mpr (hnames.imp_of_mem fun {e e'} he he' hlt heq => ?_)
  have hget := NameTable.get?_of_mem hb (List.mem_map_of_mem he)
  have hget' := NameTable.get?_of_mem hb (List.mem_map_of_mem he')
  exact ne_of_lt hlt (honce e.1 e'.1 e'.2.channel (heq ▸ hget) hget')

end ChannelBook

namespace Custody

variable {c c' : Custody} {e : CustodyEvent} {n : ChannelNumber} {conn : String} {depth : Nat}

/-! ## What every run keeps -/

/-- The record, the book and the guards agree. -/
structure Kept (c : Custody) : Prop where
  names : c.names.Nodup
  guards : c.guards.length = c.names.length
  channels : c.book.channels.length = c.names.length
  ascending : c.book.chart.Ascending
  home : ∀ conn n, c.book.chart.get? conn = some n → c.names[n]? = some conn
  /-- A channel that was not forgotten stands in the book. -/
  listed : ∀ n conn, c.names[n]? = some conn → n ∉ c.removed → c.book.chart.get? conn = some n
  away : ∀ conn n, c.book.chart.get? conn = some n → n ∉ c.removed
  once : c.removed.Nodup
  count : c.book.chart.length + c.removed.length = c.names.length
  forgotten : ∀ n ∈ c.removed, c.book.Cancelled n
  left : ∀ n g, c.guards[n]? = some g → g ≠ .held → c.book.Cancelled n
  gone : ∀ n, c.guards[n]? = some .gone → n ∈ c.removed
  /-- Closing by name said yes only for a channel that it forgot. -/
  closings : ∀ conn, (conn, true) ∈ c.closings → ∃ n ∈ c.removed, c.names[n]? = some conn
  closedOnce : (c.closings.filter (·.2)).Nodup

theorem kept_start (depth : Nat) : (start depth).Kept where
  names := List.nodup_nil
  guards := rfl
  channels := rfl
  ascending := List.Pairwise.nil
  home _ _ h := nomatch h
  listed _ _ h := nomatch h
  away _ _ h := nomatch h
  once := List.nodup_nil
  count := rfl
  forgotten _ h := nomatch h
  left _ _ h := nomatch h
  gone _ h := nomatch h
  closings _ h := nomatch h
  closedOnce := List.nodup_nil

/-- The queues of a book change, and nothing else. -/
theorem Kept.calm (h : c.Kept) {book : ChannelBook} (hcalm : c.book.Calm book) (hchart : book.chart = c.book.chart) :
    ({ c with book } : Custody).Kept :=
  { h with
    channels := hcalm.length.trans h.channels
    ascending := hchart ▸ h.ascending
    home := hchart ▸ h.home
    listed := hchart ▸ h.listed
    away := hchart ▸ h.away
    count := hchart ▸ h.count
    forgotten := fun n hn => (h.forgotten n hn).calm hcalm
    left := fun n g hg hne => (h.left n g hg hne).calm hcalm }

/-- Two channels never have the same name. -/
theorem Kept.eq_of_name (h : c.Kept) {m : ChannelNumber} (hn : c.names[n]? = some conn) (hm : c.names[m]? = some conn) :
    n = m :=
  (List.getElem?_inj (List.getElem?_eq_some_iff.mp hn).1 h.names).mp (hn.trans hm.symm)

/-- Only channels that were opened are forgotten. -/
theorem Kept.removed_lt (h : c.Kept) (hn : n ∈ c.removed) : n < c.names.length := by
  obtain ⟨o, ho, -⟩ := h.forgotten n hn
  exact h.channels ▸ (List.getElem?_eq_some_iff.mp ho).1

/-- No channel stands under a name that was not given. -/
theorem Kept.get?_fresh (h : c.Kept) (hfresh : conn ∉ c.names) : c.book.chart.get? conn = none := by
  cases hget : c.book.chart.get? conn with
  | none => rfl
  | some n => exact absurd (List.mem_of_getElem? (h.home conn n hget)) hfresh

theorem Kept.opened (h : c.Kept) (hfresh : conn ∉ c.names) :
    ({ c with
      book := (c.book.openChannel conn).2
      names := c.names ++ [conn]
      guards := c.guards ++ [.held] } : Custody).Kept := by
  obtain ⟨b, hcalm, -, hchannels⟩ := c.book.exists_openChannel conn
  have hchart : (c.book.openChannel conn).2.chart = NameTable.insert conn c.names.length c.book.chart := by
    rw [c.book.chart_openChannel, h.channels]
  have hold : ∀ (n : ChannelNumber) (other : String), c.names[n]? = some other →
      (c.names ++ [conn])[n]? = some other := fun n other hn => by
    rw [List.getElem?_append_left (List.getElem?_eq_some_iff.mp hn).1, hn]
  have hguard : ∀ (n : ChannelNumber) (g : Guard), (c.guards ++ [Guard.held])[n]? = some g → g ≠ .held →
      c.guards[n]? = some g := fun n g hg hne =>
    (getElem?_concat_eq_some hg).resolve_right fun heq => hne heq.2
  exact {
    names := List.nodup_append.mpr ⟨h.names, List.nodup_singleton _, fun a ha b hb heq => by
      rw [List.mem_singleton.mp hb] at heq
      exact hfresh (heq ▸ ha)⟩
    guards := by simp [h.guards]
    channels := by rw [hchannels, List.length_append, hcalm.length, h.channels, List.length_append]; rfl
    ascending := by
      rw [hchart]
      exact NameTable.ascending_insert h.ascending
    home := fun other n hn => by
      rw [hchart, NameTable.get?_insert_eq_some] at hn
      rcases hn with ⟨rfl, rfl⟩ | ⟨-, hn⟩
      · exact List.getElem?_concat_length
      · exact hold n other (h.home other n hn)
    listed := fun n other hn hkept => by
      rw [hchart, NameTable.get?_insert_eq_some]
      rcases getElem?_concat_eq_some hn with hn | ⟨rfl, rfl⟩
      · exact .inr ⟨fun heq => hfresh (heq ▸ List.mem_of_getElem? hn), h.listed n other hn hkept⟩
      · exact .inl ⟨rfl, rfl⟩
    away := fun other n hn => by
      rw [hchart, NameTable.get?_insert_eq_some] at hn
      rcases hn with ⟨-, rfl⟩ | ⟨-, hn⟩
      · exact fun hmem => Nat.lt_irrefl _ (h.removed_lt hmem)
      · exact h.away other n hn
    once := h.once
    count := by
      have hcount := h.count
      rw [hchart, NameTable.length_insert_of_none (h.get?_fresh hfresh), List.length_append, List.length_singleton]
      show c.book.chart.length + 1 + c.removed.length = c.names.length + 1
      omega
    forgotten := fun n hn => (h.forgotten n hn).opened conn
    left := fun n g hg hne => (h.left n g (hguard n g hg hne) hne).opened conn
    gone := fun n hg => h.gone n (hguard n .gone hg (by decide))
    closings := fun other hmem => by
      obtain ⟨n, hn, hname⟩ := h.closings other hmem
      exact ⟨n, hn, hold n other hname⟩
    closedOnce := h.closedOnce }

/-! ### Forgetting -/

theorem forget_eq (c : Custody) (conn : String) : c.forget conn =
    { c with book := (c.book.close conn).2, removed := c.removed ++ (c.book.chart.get? conn).toList } := by
  rw [forget, c.book.get?_chart]

/-- Closing under a name under which no channel stands does nothing. -/
theorem forget_of_none (h : c.book.chart.get? conn = none) :
    c.forget conn = c ∧ c.book.close conn = (false, c.book) := by
  have hget : c.book.entries.get? conn = none := by
    rw [c.book.get?_chart, Option.map_eq_none_iff] at h
    exact h
  have hclose : c.book.close conn = (false, c.book) := by simp only [ChannelBook.close, hget]
  refine ⟨?_, hclose⟩
  rw [forget, hclose, hget]
  simp

theorem cancelled_close {b : ChannelBook} (h : b.chart.get? conn = some n) (hn : n < b.channels.length) :
    (b.close conn).1 = true ∧ (b.close conn).2.Cancelled n := by
  rw [b.get?_chart] at h
  obtain ⟨e, he, rfl⟩ := Option.map_eq_some_iff.mp h
  have hclose : b.close conn = (true, ({ b with entries := b.entries.erase conn } : ChannelBook).modify e.channel
      fun o => o.cancel.dropSender) := by simp only [ChannelBook.close, he]
  rw [hclose]
  exact ⟨rfl, ChannelBook.cancelled_modify (fun _ => rfl) hn⟩

theorem cancelled_shutdownAll {b : ChannelBook} (h : b.chart.get? conn = some n) (hn : n < b.channels.length) :
    b.shutdownAll.Cancelled n := by
  rw [b.get?_chart] at h
  obtain ⟨e, he, rfl⟩ := Option.map_eq_some_iff.mp h
  exact ChannelBook.cancelled_modifyOpen (f := fun o => (o.offer .close).cancel.dropSender)
    (fun o => ((o.calm_offer rfl).trans (Outbound.calm_cancel _)).trans (Outbound.calm_dropSender _))
    (fun _ => rfl) he hn

theorem Kept.forget (h : c.Kept) (conn : String) : (c.forget conn).Kept := by
  cases hget : c.book.chart.get? conn with
  | none => rw [(forget_of_none hget).1]; exact h
  | some n =>
    have hname := h.home conn n hget
    have hlt : n < c.book.channels.length := h.channels ▸ (List.getElem?_eq_some_iff.mp hname).1
    have hcalm := c.book.calm_close conn
    have hmem : ∀ m, m ∈ c.removed ++ (some n).toList ↔ m ∈ c.removed ∨ m = n := by
      intro m
      rw [Option.toList_some, List.mem_append, List.mem_singleton]
    rw [forget_eq, hget]
    exact {
      names := h.names
      guards := h.guards
      channels := hcalm.length.trans h.channels
      ascending := by
        rw [c.book.chart_close]
        exact NameTable.ascending_erase h.ascending
      home := fun other m hm => by
        rw [c.book.chart_close, NameTable.get?_erase_eq_some] at hm
        exact h.home other m hm.2
      listed := fun m other hm hkept => by
        rw [hmem, not_or] at hkept
        rw [c.book.chart_close, NameTable.get?_erase_eq_some]
        exact ⟨fun heq => hkept.2 (h.eq_of_name (heq ▸ hm) hname), h.listed m other hm hkept.1⟩
      away := fun other m hm => by
        rw [c.book.chart_close, NameTable.get?_erase_eq_some] at hm
        obtain ⟨hne, hm⟩ := hm
        rw [hmem, not_or]
        refine ⟨h.away other m hm, fun heq => hne ?_⟩
        have hname' := h.home other m hm
        rw [heq, hname] at hname'
        exact (Option.some.inj hname').symm
      once := by
        rw [Option.toList_some]
        exact List.nodup_append.mpr ⟨h.once, List.nodup_singleton _, fun a ha b hb heq => by
          rw [List.mem_singleton.mp hb] at heq
          exact h.away conn n hget (heq ▸ ha)⟩
      count := by
        have hcount := h.count
        have herase := NameTable.length_erase_of_some h.ascending hget
        rw [c.book.chart_close, Option.toList_some, List.length_append, List.length_singleton]
        show (NameTable.erase conn c.book.chart).length + (c.removed.length + 1) = c.names.length
        omega
      forgotten := fun m hm => by
        rcases (hmem m).mp hm with hm | rfl
        · exact (h.forgotten m hm).calm hcalm
        · exact (cancelled_close hget hlt).2
      left := fun m g hg hne => (h.left m g hg hne).calm hcalm
      gone := fun m hm => (hmem m).mpr (.inl (h.gone m hm))
      closings := fun other hclosing => by
        obtain ⟨m, hm, hname'⟩ := h.closings other hclosing
        exact ⟨m, (hmem m).mpr (.inl hm), hname'⟩
      closedOnce := h.closedOnce }

/-! ### Guards -/

/-- A guard changes to what is true of its channel. -/
theorem Kept.guarded (h : c.Kept) {g : Guard} (hleft : g ≠ .held → c.book.Cancelled n)
    (hgone : g = .gone → n ∈ c.removed) :
    ({ c with guards := c.guards.set n g } : Custody).Kept := by
  exact { h with
    guards := (List.length_set ..).trans h.guards
    left := fun m g' hg' hne => by
      rcases getElem?_set_eq_some hg' with ⟨rfl, rfl⟩ | ⟨-, hold⟩
      · exact hleft hne
      · exact h.left m g' hold hne
    gone := fun m hg' => by
      rcases getElem?_set_eq_some hg' with ⟨rfl, rfl⟩ | ⟨-, hold⟩
      · exact hgone rfl
      · exact h.gone m hold }

theorem leave?_eq_some : c.leave? n = some c' ↔ c.guards[n]? = some .held ∧
    c' = { c with book := c.book.cancel n, guards := c.guards.set n .leaving } := by
  unfold leave?
  rw [Option.ite_none_right_eq_some, Option.some.injEq, eq_comm (a := c')]

theorem Kept.leaves (h : c.Kept) (hs : c.leave? n = some c') : c'.Kept := by
  obtain ⟨hheld, rfl⟩ := leave?_eq_some.mp hs
  have hn : n < c.book.channels.length := by
    rw [h.channels, ← h.guards]
    exact (List.getElem?_eq_some_iff.mp hheld).1
  have hcancelled : (c.book.cancel n).Cancelled n := ChannelBook.cancelled_modify (fun _ => rfl) hn
  exact (h.calm (c.book.calm_cancel n) rfl).guarded (fun _ => hcancelled) fun heq => by cases heq

/-- A channel that was named is forgotten once its name is closed. -/
theorem Kept.mem_removed (h : c.Kept) (hname : c.names[n]? = some conn) : n ∈ (c.forget conn).removed := by
  rw [forget_eq, List.mem_append, Option.mem_toList]
  by_cases hn : n ∈ c.removed
  · exact .inl hn
  · exact .inr (h.listed n conn hname hn)

theorem step?_removed (hs : c.step? (.removed n) = some c') : ∃ conn, c.names[n]? = some conn ∧
    c.guards[n]? = some .leaving ∧ c' = { c.forget conn with guards := c.guards.set n .gone } := by
  simp only [step?] at hs
  split at hs
  · rename_i conn hname hguard
    cases hs
    exact ⟨conn, hname, hguard, rfl⟩
  · cases hs

theorem Kept.closed (h : c.Kept) (conn : String) :
    ({ c.forget conn with closings := c.closings ++ [(conn, (c.book.close conn).1)] } : Custody).Kept := by
  have hforget := h.forget conn
  have hfilter : ∀ ok, (c.closings ++ [(conn, ok)]).filter (·.2) =
      c.closings.filter (·.2) ++ if ok then [(conn, true)] else [] := by
    intro ok
    cases ok <;> simp [List.filter_append]
  cases hget : c.book.chart.get? conn with
  | none =>
    obtain ⟨hsame, hclose⟩ := forget_of_none hget
    rw [hsame, hclose]
    refine { h with closings := fun other hmem => ?_, closedOnce := ?_ }
    · rcases List.mem_append.mp hmem with hmem | hmem
      · exact h.closings other hmem
      · cases List.mem_singleton.mp hmem
    · show ((c.closings ++ [(conn, false)]).filter (·.2)).Nodup
      rw [hfilter]
      simpa using h.closedOnce
  | some n =>
    have hname := h.home conn n hget
    have hlt : n < c.book.channels.length := h.channels ▸ (List.getElem?_eq_some_iff.mp hname).1
    rw [(cancelled_close hget hlt).1]
    refine { hforget with closings := fun other hmem => ?_, closedOnce := ?_ }
    · rcases List.mem_append.mp hmem with hmem | hmem
      · exact hforget.closings other hmem
      · cases List.mem_singleton.mp hmem
        exact ⟨n, h.mem_removed hname, hname⟩
    · show ((c.closings ++ [(conn, true)]).filter (·.2)).Nodup
      rw [hfilter]
      refine List.nodup_append.mpr ⟨h.closedOnce, List.nodup_singleton _, fun a ha b hb heq => ?_⟩
      -- A name that was closed before stands for a channel that is forgotten.
      rw [List.mem_singleton.mp hb] at heq
      subst heq
      obtain ⟨m, hm, hname'⟩ := h.closings conn (List.mem_of_mem_filter ha)
      exact h.away conn n hget (h.eq_of_name hname' hname ▸ hm)

/-- No channel stands in the book under two names. -/
theorem Kept.nodup_channels (h : c.Kept) : (c.book.entries.map (·.2.channel)).Nodup := by
  refine ChannelBook.nodup_channels h.ascending fun conn conn' n hn hn' => ?_
  have hname := h.home conn n hn
  rw [h.home conn' n hn', Option.some.injEq] at hname
  exact hname.symm

/-- The channels of the book are those that stand under a name. -/
theorem Kept.mem_channels (h : c.Kept) :
    n ∈ c.book.entries.map (·.2.channel) ↔ ∃ conn, c.book.chart.get? conn = some n :=
  ChannelBook.mem_channels h.ascending

theorem Kept.shutDown (h : c.Kept) : ({ c with
    book := c.book.shutdownAll
    removed := c.removed ++ c.book.entries.map (·.2.channel) } : Custody).Kept := by
  have hcalm := c.book.calm_shutdownAll
  have hcancelled : ∀ n ∈ c.book.entries.map (·.2.channel), c.book.shutdownAll.Cancelled n := by
    intro n hn
    obtain ⟨conn, hget⟩ := h.mem_channels.mp hn
    exact cancelled_shutdownAll hget (h.channels ▸ (List.getElem?_eq_some_iff.mp (h.home conn n hget)).1)
  have hempty : c.book.shutdownAll.chart = [] := rfl
  exact {
    names := h.names
    guards := h.guards
    channels := hcalm.length.trans h.channels
    ascending := List.Pairwise.nil
    home := fun _ _ hn => nomatch hn
    listed := fun n conn hn hkept => by
      rw [List.mem_append, not_or] at hkept
      exact absurd (h.mem_channels.mpr ⟨conn, h.listed n conn hn hkept.1⟩) hkept.2
    away := fun _ _ hn => nomatch hn
    once := by
      refine List.nodup_append.mpr ⟨h.once, h.nodup_channels, fun a ha b hb heq => ?_⟩
      obtain ⟨conn, hget⟩ := h.mem_channels.mp hb
      exact h.away conn b hget (heq ▸ ha)
    count := by
      have hcount := h.count
      have hlength : c.book.chart.length = c.book.entries.length := c.book.length_chart
      rw [hempty, List.length_append, List.length_map]
      show 0 + (c.removed.length + c.book.entries.length) = c.names.length
      omega
    forgotten := fun n hn => by
      rcases List.mem_append.mp hn with hn | hn
      · exact (h.forgotten n hn).calm hcalm
      · exact hcancelled n hn
    left := fun n g hg hne => (h.left n g hg hne).calm hcalm
    gone := fun n hg => List.mem_append.mpr (.inl (h.gone n hg))
    closings := fun conn hmem => by
      obtain ⟨n, hn, hname⟩ := h.closings conn hmem
      exact ⟨n, List.mem_append.mpr (.inl hn), hname⟩
    closedOnce := h.closedOnce }

theorem Kept.step (h : c.Kept) (hs : c.step? e = some c') : c'.Kept := by
  cases e with
  | opened conn =>
    simp only [step?, Option.ite_none_left_eq_some, Option.some.injEq] at hs
    obtain ⟨hfresh, rfl⟩ := hs
    exact h.opened hfresh
  | closed conn =>
    cases hs
    exact h.closed conn
  | guardClosed n => exact h.leaves hs
  | guardDropped n => exact h.leaves hs
  | removed n =>
    obtain ⟨conn, hname, hguard, rfl⟩ := step?_removed hs
    have hforget := h.forget conn
    have hmem := h.mem_removed hname
    exact hforget.guarded (fun _ => hforget.forgotten n hmem) fun _ => hmem
  | cancelled n =>
    cases hs
    exact h.calm (c.book.calm_cancel n) rfl
  | begun conn key =>
    simp only [step?] at hs
    split at hs
    · rename_i id book hbegin
      cases hs
      exact h.calm (.of_channels (ChannelBook.channels_beginJob hbegin)) (ChannelBook.chart_beginJob h.ascending hbegin)
    · cases hs
      exact h
  | ended conn id =>
    cases hs
    exact h.calm (c.book.calm_endJob conn id) (ChannelBook.chart_endJob h.ascending)
  | pinged =>
    cases hs
    exact h.calm c.book.calm_pingAll c.book.chart_pingAll
  | shutDown =>
    cases hs
    exact h.shutDown

theorem run?_cons {es : List CustodyEvent} : c.run? (e :: es) = (c.step? e).bind (·.run? es) := List.foldlM_cons

theorem kept_run {es : List CustodyEvent} (h : c.Kept) (hr : c.run? es = some c') : c'.Kept := by
  induction es generalizing c with
  | nil =>
    cases hr
    exact h
  | cons e es ih =>
    rw [run?_cons] at hr
    obtain ⟨d, hd, hr⟩ := Option.bind_eq_some_iff.mp hr
    exact ih (h.step hd) hr

end Custody
end FrameStream
