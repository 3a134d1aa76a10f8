import FrameStream.Proofs.Channel.Bare
import FrameStream.Proofs.Leads
import FrameStream.Rehearsal.Channels

/-!
# Rehearsals of the book of channels are traffic

A rehearsal of the book of channels serves whoever has waited longest, lets jobs take slots, and numbers only the
messages that had to wait. Traffic wakes whoever it likes, knows nothing of slots, and numbers every message. A
rehearsal stands for traffic through its bare book (`ChannelBook.bare`), from which the jobs are left out and in which
messages wait under the numbers that traffic gave them. Every step of a rehearsal is some events of traffic, and the
frames that it reports are those that the receivers got.
-/

namespace FrameStream.Rehearsal

/-- The traffic is that of the rehearsal, and knows the message that waited under a number by its place. -/
structure Channels.ShowsBy (place : Nat → Nat) (c : Channels) (t : Traffic) : Prop where
  book : t.book = c.book.bare place
  ascending : c.book.chart.Ascending
  early : c.book.Early c.tickets.length
  answers : ∀ ticket delivered, c.tickets[ticket]? = some (if delivered then .queued else .closed) →
    (place ticket, delivered) ∈ t.returned

def Channels.Shows (c : Channels) (t : Traffic) : Prop := ∃ place, c.ShowsBy place t

/-- The frame that a step reports. -/
def ChannelAnswer.frame? : ChannelAnswer → Option OutFrame
  | .frame f => some f
  | _ => none

namespace Channels

/-- Whatever traffic stands for one rehearsal, some events lead to traffic that stands for the other, and the receivers
get these frames meanwhile. -/
def Follows (c c' : Channels) (frames : List OutFrame) : Prop :=
  ∀ t, c.Shows t → ∃ t', Leads Traffic.step? t t' ∧ c'.Shows t' ∧ t'.received.map (·.2) = t.received.map (·.2) ++ frames

variable {c c' c'' : Channels} {t : Traffic} {place : Nat → Nat} {fs gs : List OutFrame}

theorem Follows.refl (c : Channels) : c.Follows c [] := fun t h => ⟨t, .refl t, h, (List.append_nil _).symm⟩

theorem Follows.trans (h : c.Follows c' fs) (h' : c'.Follows c'' gs) : c.Follows c'' (fs ++ gs) := by
  intro t ht
  obtain ⟨t₁, hleads, ht₁, hframes⟩ := h t ht
  obtain ⟨t₂, hleads', ht₂, hframes'⟩ := h' t₁ ht₁
  exact ⟨t₂, hleads.trans hleads', ht₂, by rw [hframes', hframes, List.append_assoc]⟩

/-- All but the queues and what became of messages is nothing to traffic. -/
theorem Follows.of_eq (h : c.Follows c' fs) (hbook : c''.book = c'.book) (htickets : c''.tickets = c'.tickets) :
    c.Follows c'' fs := by
  intro t ht
  obtain ⟨t', hleads, ⟨place, h'⟩, hframes⟩ := h t ht
  refine ⟨t', hleads, ⟨place, hbook ▸ h'.book, hbook ▸ h'.ascending, ?_, htickets ▸ h'.answers⟩, hframes⟩
  rw [hbook, htickets]
  exact h'.early

/-- An event that concerns the book alone. -/
theorem follows_of_event (e : TrafficEvent) (hstep : ∀ (t : Traffic) (place : Nat → Nat), t.book = c.book.bare place →
      t.step? e = some { t with book := c'.book.bare place })
    (hascending : c.book.chart.Ascending → c'.book.chart.Ascending)
    (hearly : ∀ limit, c.book.Early limit → c'.book.Early limit) (htickets : c'.tickets = c.tickets) :
    c.Follows c' [] := by
  rintro t ⟨place, h⟩
  refine ⟨_, .one (hstep t place h.book), ⟨place, rfl, hascending h.ascending, ?_, ?_⟩,
    (List.append_nil _).symm⟩
  · rw [htickets]
    exact hearly _ h.early
  · rw [htickets]
    exact h.answers

/-- What has to do with the slots alone is no event. -/
theorem follows_of_same (hbare : c.book.chart.Ascending → ∀ place, c'.book.bare place = c.book.bare place)
    (hchart : c.book.chart.Ascending → c'.book.chart = c.book.chart) (hcalm : c.book.Calm c'.book)
    (htickets : c'.tickets = c.tickets) : c.Follows c' [] := by
  rintro t ⟨place, h⟩
  refine ⟨t, .refl t, ⟨place, ?_, ?_, ?_, ?_⟩, (List.append_nil _).symm⟩
  · rw [h.book, hbare h.ascending]
  · rw [hchart h.ascending]
    exact h.ascending
  · rw [htickets]
    exact h.early.calm hcalm
  · rw [htickets]
    exact h.answers

/-- One queue changes, and nobody comes to wait or stops waiting. -/
theorem follows_of_modify {f : Outbound → Outbound} (e : TrafficEvent) (n : ChannelNumber)
    (hstep : ∀ t : Traffic, t.step? e = some { t with book := t.book.modify n f })
    (hrenumber : ∀ (place : Nat → Nat) (o : Outbound), (f o).renumber place = f (o.renumber place))
    (hcalm : ∀ o : Outbound, o.Calm (f o)) (hbook : c'.book = c.book.modify n f) (htickets : c'.tickets = c.tickets) :
    c.Follows c' [] := by
  refine follows_of_event e (fun t place hbare => ?_) (fun h => ?_) (fun limit h => ?_) htickets
  · rw [hstep, hbare, hbook, ChannelBook.bare_modify_self (hrenumber place)]
  · rw [hbook]
    exact h
  · rw [hbook]
    exact h.calm (ChannelBook.calm_modify hcalm _ n)

/-- Names are struck from the book, and nobody comes to wait or stops waiting. -/
theorem follows_of_strikes {book : ChannelBook} (e : TrafficEvent)
    (hstep : ∀ (t : Traffic) (place : Nat → Nat), t.book = c.book.bare place →
      t.step? e = some { t with book := book.bare place })
    (hstrikes : c.book.Strikes book) (hcalm : c.book.Calm book) : c.Follows { c with book } [] :=
  follows_of_event e hstep hstrikes.ascending (fun _ h => h.calm hcalm) rfl

/-! ## Messages and frames -/

theorem send_snd (c : Channels) (n : ChannelNumber) (m : Message) :
    (c.send n m).2 = { c with
      book := (c.book.send n c.tickets.length m.text).2
      tickets := if (c.book.send n c.tickets.length m.text).1 = .waits then c.tickets ++ [.waits] else c.tickets } := by
  rcases hsend : c.book.send n c.tickets.length m.text with ⟨_ | _ | _, book⟩ <;> simp [send, hsend]

theorem early_send {n : ChannelNumber} {o : Outbound} (h : c.book.Early c.tickets.length)
    (ho : c.book.channels[n]? = some o) (m : Message) :
    (c.send n m).2.book.Early (c.send n m).2.tickets.length := by
  have hold : ∀ {limit : Nat}, c.tickets.length ≤ limit → ∀ w ∈ o.waiting, w.1 < limit :=
    fun hle w hw => Nat.lt_of_lt_of_le (h n o ho w hw) hle
  rw [send_snd, ChannelBook.send_eq ho]
  rcases o.send_cases c.tickets.length m.text with ⟨-, hsend⟩ | ⟨-, -, hsend⟩ | ⟨-, -, hsend⟩ <;> rw [hsend]
  · exact h.set (Nat.le_refl _) ho (hold (Nat.le_refl _))
  · exact h.set (Nat.le_refl _) ho (hold (Nat.le_refl _))
  · have hlength : (c.tickets ++ [Delivery.waits]).length = c.tickets.length + 1 := List.length_append
    show ChannelBook.Early _ (c.tickets ++ [Delivery.waits]).length
    rw [hlength]
    refine h.set (Nat.le_succ _) ho fun w hw => ?_
    rcases List.mem_append.mp hw with hw | hw
    · exact hold (Nat.le_succ _) w hw
    · exact List.mem_singleton.mp hw ▸ Nat.lt_succ_self _

/-- A message that has to wait gets the next number; nothing is said yet of what became of it. -/
theorem answered_send {n : ChannelNumber} {m : Message} {ticket : Nat} {delivered : Bool}
    (h : (c.send n m).2.tickets[ticket]? = some (if delivered then .queued else .closed)) :
    ticket < c.tickets.length ∧ c.tickets[ticket]? = some (if delivered then .queued else .closed) := by
  rw [send_snd] at h
  simp only at h
  split at h
  · rcases getElem?_concat_eq_some h with h | ⟨-, h⟩
    · exact ⟨(List.getElem?_eq_some_iff.mp h).1, h⟩
    · cases delivered <;> cases h
  · exact ⟨(List.getElem?_eq_some_iff.mp h).1, h⟩

/-- A message that is sent on a channel is sent in the traffic, whose next place is its number from now on. -/
theorem follows_send (c : Channels) (n : ChannelNumber) (m : Message) : c.Follows (c.send n m).2 [] := by
  cases ho : c.book.channels[n]? with
  | none =>
    have hsame : (c.send n m).2 = c := by simp [send, ChannelBook.send, ChannelBook.channel?, ho]
    rw [hsame]
    exact .refl c
  | some o =>
    rintro t ⟨place, h⟩
    have hagree : ∀ k < c.tickets.length, Function.update place c.tickets.length t.sends.length k = place k :=
      fun k hk => Function.update_of_ne (Nat.ne_of_lt hk) _ _
    have hbare : t.book = c.book.bare (Function.update place c.tickets.length t.sends.length) := by
      rw [h.book]
      exact ChannelBook.bare_congr fun k p hp w hw => (hagree w.1 (h.early k p hp w hw)).symm
    have hnext : Function.update place c.tickets.length t.sends.length c.tickets.length = t.sends.length :=
      Function.update_self ..
    have hsend := ChannelBook.bare_send (Function.update place c.tickets.length t.sends.length) c.book n
      c.tickets.length m.text
    rw [hnext, ← hbare] at hsend
    have hn : n < t.book.channels.length := by
      rw [h.book, ChannelBook.bare, List.length_map]
      exact (List.getElem?_eq_some_iff.mp ho).1
    refine ⟨t.send n m, .one (e := .sent n m) (if_pos hn), ⟨Function.update place c.tickets.length t.sends.length,
      ?_, ?_, early_send h.early ho m, fun ticket delivered hd => ?_⟩, (List.append_nil _).symm⟩
    · rw [Traffic.send, hsend]
      rfl
    · show (c.book.send n c.tickets.length m.text).2.chart.Ascending
      rw [ChannelBook.chart, ChannelBook.entries_send]
      exact h.ascending
    · obtain ⟨hlt, hd⟩ := answered_send hd
      rw [hagree ticket hlt]
      exact List.mem_append_left _ (h.answers ticket delivered hd)

/-- Whoever is served or turned away goes on in the traffic. -/
theorem follows_resume {ticket : Nat} {delivered : Bool} {book : ChannelBook}
    (hresume : c.book.resumeFirst? = some (ticket, delivered, book)) :
    c.Follows ({ c with book }.answer ticket delivered) [] := by
  obtain ⟨n, -, hn⟩ := List.exists_of_findSome?_eq_some hresume
  unfold ChannelBook.resume? ChannelBook.channel? at hn
  cases ho : c.book.channels[n]? with
  | none => simp [ho] at hn
  | some o =>
    simp only [ho] at hn
    obtain ⟨⟨k, ok, o'⟩, hfirst, heq⟩ := Option.map_eq_some_iff.mp hn
    simp only [Prod.mk.injEq] at heq
    obtain ⟨rfl, rfl, rfl⟩ := heq
    rintro t ⟨place, h⟩
    have hstep : t.step? (.resumed n 0) = some { t with
        book := (c.book.modify n fun _ => o').bare place, returned := t.returned ++ [(place k, ok)] } := by
      simp only [Traffic.step?, ChannelBook.channel?, h.book, ChannelBook.getElem?_bare, ho, Option.map_some,
        Outbound.resumeAt?_zero, Outbound.resume?_renumber, hfirst, ChannelBook.bare_set]
    obtain ⟨text, rest, hwaiting, hafter⟩ := Outbound.resume?_eq_some.mp hfirst
    have hrest : o'.waiting = rest := by rcases hafter with ⟨-, -, rfl⟩ | ⟨-, -, -, rfl⟩ <;> rfl
    refine ⟨_, .one hstep, ⟨place, rfl, h.ascending, ?_, fun ticket delivered hd => ?_⟩,
      (List.append_nil _).symm⟩
    · show ChannelBook.Early _ (c.tickets.set k _).length
      rw [List.length_set]
      refine h.early.set (Nat.le_refl _) ho fun w hw => h.early n o ho w ?_
      rw [hwaiting]
      exact List.mem_cons_of_mem _ (hrest ▸ hw)
    · rcases getElem?_set_eq_some hd with ⟨rfl, heq⟩ | ⟨-, hd⟩
      · have hsame : delivered = ok := by cases delivered <;> cases ok <;> simp_all
        exact List.mem_append_right _ (List.mem_singleton.mpr (hsame ▸ rfl))
      · exact List.mem_append_left _ (h.answers ticket delivered hd)

theorem follows_settle : ∀ (fuel : Nat) (c : Channels), c.Follows (settle fuel c) []
  | 0, c => .refl c
  | fuel + 1, c => by
    unfold settle
    split
    · rename_i ticket delivered book hresume
      exact (follows_resume hresume).trans (follows_settle fuel _)
    · exact .refl c

/-- A frame that is reported was received. -/
theorem follows_receive (c : Channels) (n : ChannelNumber) :
    c.Follows (c.receive n).2 (c.receive n).1.frame?.toList := by
  unfold receive
  split
  · rename_i f book htake
    rintro t ⟨place, h⟩
    have hstep : t.step? (.received n) = some { t with
        book := book.bare place, received := t.received ++ [(n, f)] } := by
      simp only [Traffic.step?, h.book, ChannelBook.bare_take?, htake, Option.map_some]
    unfold ChannelBook.take? ChannelBook.channel? at htake
    split at htake
    · rename_i o ho
      obtain ⟨⟨f', o'⟩, hfirst, heq⟩ := Option.map_eq_some_iff.mp htake
      cases heq
      obtain ⟨rest, -, rfl⟩ := Outbound.take?_eq_some.mp hfirst
      refine ⟨_, .one hstep, ⟨place, rfl, h.ascending, ?_, h.answers⟩, by simp [ChannelAnswer.frame?]⟩
      exact h.early.set (Nat.le_refl _) ho fun w hw => h.early n o ho w hw
    · cases htake
  · have hnone : (if c.book.ended n then ChannelAnswer.ended else .empty).frame? = none := by split <;> rfl
    rw [hnone]
    exact .refl c

/-! ## Steps -/

theorem follows_dropSender (c : Channels) (n : ChannelNumber) :
    c.Follows { c with book := c.book.modify n Outbound.dropSender } [] :=
  follows_of_modify (.dropped n) n (fun _ => rfl) (fun _ _ => rfl) Outbound.calm_dropSender rfl rfl

theorem follows_dropHandle (c : Channels) (label : String) : c.Follows (c.dropHandle label) [] := by
  unfold dropHandle
  split
  · rename_i o _
    exact (follows_dropSender c o.channel).of_eq rfl rfl
  · exact .refl c

theorem follows_dropReceiver (c : Channels) (label : String) : c.Follows (c.dropReceiver label) [] := by
  unfold dropReceiver
  split
  · rename_i o _
    exact follows_of_modify (.receiverDropped o.channel) o.channel (fun _ => rfl) (fun _ _ => rfl)
      Outbound.calm_dropReceiver rfl rfl
  · exact .refl c

theorem follows_close (c : Channels) (conn : String) :
    c.Follows { c with book := (c.book.close conn).2 } [] :=
  follows_of_strikes (.closed conn) (fun t place h => by rw [Traffic.step?, h, ChannelBook.bare_close])
    (ChannelBook.strikes_close _ conn) (c.book.calm_close conn)

theorem follows_closeGuard (c : Channels) (label : String) : c.Follows (c.closeGuard label) [] := by
  unfold closeGuard
  split
  · rename_i o _
    have hclose : c.Follows { c with book := c.book.closeGuard o.conn o.channel } [] :=
      follows_of_strikes (.guardClosed o.conn o.channel)
        (fun t place h => by rw [Traffic.step?, h, ChannelBook.bare_closeGuard])
        (ChannelBook.strikes_closeGuard _ o.conn o.channel) (c.book.calm_closeGuard o.conn o.channel)
    exact hclose.of_eq rfl rfl
  · exact .refl c

/-- What a label stood for before is dropped once the new channel is open. -/
theorem follows_openAs (c : Channels) (label conn : String) : c.Follows (c.openAs label conn) [] := by
  have hopen : c.Follows { c with book := (c.book.openChannel conn).2 } [] := by
    refine follows_of_event (.opened conn) (fun t place h => ?_) (fun h => ?_) (fun limit h => h.openChannel conn) rfl
    · rw [Traffic.step?, h, ChannelBook.bare_openChannel]
    · show (c.book.openChannel conn).2.chart.Ascending
      rw [ChannelBook.chart_openChannel]
      exact NameTable.ascending_insert h
  have hdrop := (hopen.trans (follows_dropHandle _ label)).trans (follows_dropReceiver _ label)
  exact hdrop.of_eq rfl rfl

theorem follows_pingAll (c : Channels) : c.Follows { c with book := c.book.pingAll } [] :=
  follows_of_event .pinged (fun t place h => by rw [Traffic.step?, h, ChannelBook.bare_pingAll])
    (fun h => by
      show c.book.pingAll.chart.Ascending
      rw [ChannelBook.chart_pingAll]
      exact h)
    (fun limit h => h.calm c.book.calm_pingAll) rfl

theorem follows_pings : ∀ (n : Nat) (c : Channels), c.Follows { c with book := pings n c.book } []
  | 0, c => .refl c
  | n + 1, c => (follows_pingAll c).trans (follows_pings n _)

theorem follows_shutdownAll (c : Channels) : c.Follows { c with book := c.book.shutdownAll } [] :=
  follows_of_strikes .shutDown (fun t place h => by rw [Traffic.step?, h, ChannelBook.bare_shutdownAll])
    (ChannelBook.strikes_shutdownAll _) c.book.calm_shutdownAll

/-- Taking a slot is nothing to the queues. -/
theorem follows_beginJob {conn key : String} {id : JobId} {book : ChannelBook}
    (h : c.book.beginJob conn key = .ok (id, book)) : c.Follows { c with book } [] :=
  follows_of_same (fun hb => ChannelBook.bare_beginJob hb h) (fun hb => ChannelBook.chart_beginJob hb h)
    (.of_channels (ChannelBook.channels_beginJob h)) rfl

theorem follows_endJob (c : Channels) (conn : String) (id : JobId) :
    c.Follows { c with book := (c.book.endJob conn id).2 } [] :=
  follows_of_same (fun hb => ChannelBook.bare_endJob hb conn id) (fun hb => ChannelBook.chart_endJob hb)
    (c.book.calm_endJob conn id) rfl

theorem follows_jobChannel (c : Channels) (o : Opened) (id : JobId) (job : String) :
    c.Follows (c.jobChannel o id job) [] := by
  have hclone : c.Follows { c with book := c.book.modify o.channel Outbound.addSender } [] :=
    follows_of_modify (.cloned o.channel) o.channel (fun _ => rfl) (fun _ _ => rfl) Outbound.calm_addSender rfl rfl
  unfold jobChannel
  split
  · rename_i old _
    exact (hclone.trans (follows_dropSender _ old.channel)).of_eq rfl rfl
  · exact hclone.of_eq rfl rfl

/-- A last message is sent once the slot is given back. -/
theorem follows_jobSend (c : Channels) (j : JobHandle) (m : Message) : c.Follows (c.jobSend j m).2 [] := by
  unfold jobSend
  split
  · exact (follows_endJob c j.conn j.id).trans (follows_send _ j.channel m)
  · exact follows_send c j.channel m

theorem follows_advance (c : Channels) (duration : Nat) : c.Follows (c.advance duration) [] :=
  (follows_pings _ c).of_eq rfl rfl

theorem follows_apply (c : Channels) (s : ChannelStep) : c.Follows (c.apply s).2 (c.apply s).1.frame?.toList := by
  cases s with
  | openAs label conn => exact follows_openAs c label conn
  | close conn => exact follows_close c conn
  | closeGuard label => exact follows_closeGuard c label
  | dropReceiver label => exact follows_dropReceiver c label
  | dropHandle label => exact follows_dropHandle c label
  | beginJob conn key =>
    simp only [apply]
    split
    · rename_i id book hbegin
      exact follows_beginJob hbegin
    · exact .refl c
  | endJob conn id => exact follows_endJob c conn id
  | pingAll => exact follows_pingAll c
  | shutdownAll => exact follows_shutdownAll c
  | send label m =>
    simp only [apply]
    split
    · rename_i o _
      exact follows_send c o.channel m
    · exact .refl c
  | receive label =>
    simp only [apply]
    split
    · rename_i o _
      exact follows_receive c o.channel
    · exact .refl c
  | jobChannel label id job =>
    simp only [apply]
    split
    · rename_i o _
      exact follows_jobChannel c o id job
    · exact .refl c
  | jobSend job m =>
    simp only [apply]
    split
    · rename_i j _
      exact follows_jobSend c j m
    · exact .refl c
  | jobRelease job =>
    simp only [apply]
    split
    · rename_i j _
      exact follows_endJob c j.conn j.id
    · exact .refl c
  | ticket n =>
    cases hn : c.tickets[n]? with
    | none => simpa [apply, hn, ChannelAnswer.frame?] using .refl c
    | some d => simpa [apply, hn, ChannelAnswer.frame?] using .refl c
  | isClosed label =>
    simp only [apply]
    split <;> exact .refl c
  | jobIsClosed job =>
    simp only [apply]
    split <;> exact .refl c
  | spawnJob duration => exact (Follows.refl c).of_eq rfl rfl
  | waitJobs timeout => exact follows_advance c _
  | startHeartbeat => exact (follows_pingAll c).of_eq rfl rfl
  | stopHeartbeat => exact (Follows.refl c).of_eq rfl rfl
  | advance duration => exact follows_advance c duration
  | activeKey conn => exact .refl c
  | idle => exact .refl c

theorem follows_step (c : Channels) (s : ChannelStep) : c.Follows (c.step s).2 (c.step s).1.frame?.toList := by
  have hsettle := (follows_apply c s).trans (follows_settle (c.apply s).2.book.waiting (c.apply s).2)
  rw [List.append_nil] at hsettle
  exact hsettle

/-! ## Scripts -/

/-- What the steps of a script report, and the rehearsal after them. -/
def play (c : Channels) : List ChannelStep → List ChannelAnswer × Channels
  | [] => ([], c)
  | s :: rest => ((c.step s).1 :: ((c.step s).2.play rest).1, ((c.step s).2.play rest).2)

theorem follows_play : ∀ (script : List ChannelStep) (c : Channels),
    c.Follows (c.play script).2 ((c.play script).1.filterMap ChannelAnswer.frame?)
  | [], c => .refl c
  | s :: rest, c => by
    have hrest := (follows_step c s).trans (follows_play rest (c.step s).2)
    have hframes : (c.play (s :: rest)).1.filterMap ChannelAnswer.frame? =
        (c.step s).1.frame?.toList ++ ((c.step s).2.play rest).1.filterMap ChannelAnswer.frame? := by
      rw [play, List.filterMap_cons]
      cases (c.step s).1.frame? <;> rfl
    rw [hframes]
    exact hrest

/-- Whatever the script, the rehearsal stands for a run of traffic, and reports the frames that were received in it, in
the order in which they were. -/
theorem play_run (depth : Nat) (script : List ChannelStep) :
    ∃ es t, (Traffic.start depth).run? es = some t ∧ (play { book := .ofDepth depth } script).2.Shows t ∧
      t.received.map (·.2) = (play { book := .ofDepth depth } script).1.filterMap ChannelAnswer.frame? := by
  have hstart : Shows { book := .ofDepth depth } (Traffic.start depth) := by
    refine ⟨id, rfl, List.Pairwise.nil, fun n o ho => ?_, fun ticket delivered hd => ?_⟩
    · cases ho
    · cases hd
  obtain ⟨t, hleads, hshows, hframes⟩ := follows_play script _ _ hstart
  obtain ⟨es, hrun⟩ := hleads
  exact ⟨es, t, hrun, hshows, hframes⟩

end Channels
end FrameStream.Rehearsal
