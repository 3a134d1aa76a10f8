import FrameStream.Proofs.Channel.Docket

/-!
# What a step is to one loop or one job

A receive loop stays where it is until it takes something, hands over its refusal or learns what came of it, or leaves.
A job keeps its message until that got through or was lost, and a slot it has given back it does not hold again. The
record of a server only grows.
-/

namespace FrameStream

/-- Where an event, or a moment without one, takes the receive loop of the connection `n`. -/
inductive Receiving.Turn (r : Receiving) (happened : Option ServerEvent) (n : Nat) : Receiving → Prop where
  | same : Turn r happened n r
  | left (listens : r = .listening) : Turn r happened n .left
  | taken (r' : Receiving) (event : happened = some (.taken n)) (listens : r = .listening) : Turn r happened n r'
  | refused (m : Message) (r' : Receiving) (refuses : r = .refusing m) : Turn r happened n r'
  | resumed (ticket : Nat) (waits : r = .waiting ticket) : Turn r happened n .listening

/-- Where an event takes a job. -/
inductive ChannelJob.Turn (j j' : ChannelJob) : Prop where
  | same (ticket : j'.ticket? = j.ticket?) (released : j.released = true → j'.released = true)
  | answered (delivered : Bool) (phase : j'.phase = j.phase.answered delivered)
  | waits (before : j.ticket? = none) (after : j'.ticket? ≠ none)

namespace ChannelServer

variable {s s' : ChannelServer} {e : ServerEvent} {n k m : Nat} {c : Connection} {j : ChannelJob}

theorem turn_set {c' d : Connection} (hc : s.connections[n]? = some c) (hd : s.connections[m]? = some d)
    (h : m = n → d.receiving.Turn (some e) n c'.receiving) :
    ∃ c'', (s.connections.set m c')[n]? = some c'' ∧ c.receiving.Turn (some e) n c''.receiving :=
  exists_getElem?_set (R := fun c c' => c.receiving.Turn (some e) n c'.receiving) (fun _ => .same) hc hd h

theorem receiving_step (hs : s.step? e = some s') (hc : s.connections[n]? = some c) :
    ∃ c', s'.connections[n]? = some c' ∧ c.receiving.Turn (some e) n c'.receiving := by
  have hquiet : e.isQuiet = true → ∃ c', s'.connections[n]? = some c' ∧ c.receiving.Turn (some e) n c'.receiving := by
    intro he
    obtain ⟨c', hc', hsame | ⟨hlistens, hleft⟩⟩ := (quiet_step hs he).exists_connection hc
    · exact ⟨c', hc', hsame ▸ .same⟩
    · exact ⟨c', hc', hleft ▸ .left hlistens⟩
  cases e with
  | accepted conn =>
    rw [step?_accepted hs]
    exact ⟨c, (List.getElem?_append_left (List.getElem?_eq_some_iff.mp hc).1).trans hc, .same⟩
  | arrived m i =>
    obtain ⟨d, hd, rfl⟩ := step?_arrived hs
    exact turn_set hc hd fun _ => .same
  | taken m =>
    obtain ⟨d, i, d', b, job, hd, hlistens, -, rfl⟩ := step?_taken hs
    exact turn_set hc hd fun hm => .taken _ (by rw [hm]) hlistens
  | refused m =>
    obtain ⟨d, m', hd, hrefuses, rfl⟩ := step?_refused hs
    exact turn_set hc hd fun _ => .refused m' _ hrefuses
  | forwarded m =>
    obtain ⟨d, hd, -, ⟨f, o, o', -, -, rfl⟩ | ⟨-, rfl⟩⟩ := step?_forwarded hs
    · exact turn_set hc hd fun _ => .same
    · exact turn_set hc hd fun _ => .same
  | sent k =>
    obtain ⟨j, m, -, -, -, ⟨-, -, rfl⟩ | ⟨-, rfl⟩⟩ := step?_sent hs
    · exact ⟨c, hc, .same⟩
    · exact ⟨c, hc, .same⟩
  | moved k move =>
    obtain ⟨j, -, rfl⟩ := step?_moved hs
    exact ⟨c, hc, .same⟩
  | resumed m =>
    obtain ⟨o, ticket, delivered, o', -, -, rfl⟩ := step?_resumed hs
    refine ⟨_, (List.getElem?_map ..).trans (congrArg (Option.map _) hc), ?_⟩
    dsimp only
    split
    · rename_i t hwaits
      split
      · exact .resumed t hwaits
      · exact .same
    · exact .same
  | _ => exact hquiet rfl

theorem job_step (hs : s.step? e = some s') (hj : s.jobs[k]? = some j) :
    ∃ j', s'.jobs[k]? = some j' ∧ j.Turn j' := by
  have hlt := (List.getElem?_eq_some_iff.mp hj).1
  have hrefl : ∀ j : ChannelJob, j.Turn j := fun _ => .same rfl id
  have hquiet : e.isQuiet = true → ∃ j', s'.jobs[k]? = some j' ∧ j.Turn j' := by
    intro he
    obtain ⟨j', hj', hkeeps⟩ := (quiet_step hs he).exists_job hj
    exact ⟨j', hj', .same hkeeps.ticket hkeeps.released⟩
  cases e with
  | accepted conn =>
    rw [step?_accepted hs]
    exact ⟨j, hj, .same rfl id⟩
  | arrived m i =>
    obtain ⟨c, -, rfl⟩ := step?_arrived hs
    exact ⟨j, hj, .same rfl id⟩
  | taken m =>
    obtain ⟨c, i, c', b, job, -, -, -, rfl⟩ := step?_taken hs
    exact ⟨j, (List.getElem?_append_left hlt).trans hj, .same rfl id⟩
  | refused m =>
    obtain ⟨c, m', -, -, rfl⟩ := step?_refused hs
    exact ⟨j, hj, .same rfl id⟩
  | forwarded m =>
    obtain ⟨c, -, -, ⟨f, o, o', -, -, rfl⟩ | ⟨-, rfl⟩⟩ := step?_forwarded hs
    · exact ⟨j, hj, .same rfl id⟩
    · exact ⟨j, hj, .same rfl id⟩
  | sent i =>
    obtain ⟨p, m, hp, hticket, -, ⟨-, -, rfl⟩ | ⟨-, rfl⟩⟩ := step?_sent hs
    · exact exists_getElem?_set hrefl hj hp fun _ => .same rfl fun _ => rfl
    · refine exists_getElem?_set hrefl hj hp fun _ => ?_
      cases (s.book.send p.channel s.nextTicket m.text).1 with
      | queued => exact .answered true rfl
      | closed => exact .answered false rfl
      | waits => exact .waits hticket nofun
  | moved i move =>
    obtain ⟨p, hp, rfl⟩ := step?_moved hs
    exact exists_getElem?_set hrefl hj hp fun _ => .same rfl id
  | resumed m =>
    obtain ⟨o, ticket, delivered, o', -, -, rfl⟩ := step?_resumed hs
    refine ⟨_, (List.getElem?_map ..).trans (congrArg (Option.map _) hj), ?_⟩
    dsimp only
    split
    · exact .answered delivered rfl
    · exact .same rfl id
  | _ => exact hquiet rfl

end ChannelServer

/-! ## The record grows -/

namespace Docket

/-- All that is noted in `d` is noted in `d'`, in the same order. -/
structure Extends (d d' : Docket) : Prop where
  arrived : ∀ n, d.arrived n <+: d'.arrived n
  taken : ∀ n, d.taken n ≤ d'.taken n
  origins : d.origins <+: d'.origins
  said : d.said <+: d'.said
  forwarded : ∀ n, d.forwarded n <+: d'.forwarded n

variable {d d' d'' : Docket} {s : ChannelServer} {e : ServerEvent} {l : Letter} {i : Inbound}

theorem Extends.refl (d : Docket) : d.Extends d where
  arrived _ := List.prefix_rfl
  taken _ := Nat.le_refl _
  origins := List.prefix_rfl
  said := List.prefix_rfl
  forwarded _ := List.prefix_rfl

theorem Extends.trans (h : d.Extends d') (h' : d'.Extends d'') : d.Extends d'' where
  arrived n := (h.arrived n).trans (h'.arrived n)
  taken n := Nat.le_trans (h.taken n) (h'.taken n)
  origins := h.origins.trans h'.origins
  said := h.said.trans h'.said
  forwarded n := (h.forwarded n).trans (h'.forwarded n)

theorem Extends.letter (h : d.Extends d') (hl : d.letter? l = some i) : d'.letter? l = some i := by
  obtain ⟨more, hmore⟩ := h.arrived l.connection
  rw [letter?, ← hmore, List.getElem?_append_left (List.getElem?_eq_some_iff.mp hl).1]
  exact hl

/-- A letter asks for the same thing ever after. -/
theorem Extends.request_eq {text text' : Bytes} {r r' : Request} (h : d.Extends d')
    (hl : d.letter? l = some (.request text)) (hl' : d'.letter? l = some (.request text'))
    (hparse : Request.parse text = .ok r) (hparse' : Request.parse text' = .ok r') : r' = r := by
  have hsame := h.letter hl
  rw [hl', Option.some.injEq, Inbound.request.injEq] at hsame
  subst hsame
  rw [hparse'] at hparse
  exact Except.ok.inj hparse

theorem Extends.origin {k : Nat} (h : d.Extends d') (hl : d.origins[k]? = some l) : d'.origins[k]? = some l := by
  obtain ⟨more, hmore⟩ := h.origins
  rw [← hmore, List.getElem?_append_left (List.getElem?_eq_some_iff.mp hl).1]
  exact hl

theorem Extends.heard (h : d.Extends d') (l : Letter) : d.heard l <+: d'.heard l := (h.said.filter _).map _

theorem Extends.saidOn (h : d.Extends d') (n : ChannelNumber) : d.saidOn n <+: d'.saidOn n := (h.said.filter _).map _

theorem extends_handed (d : Docket) (l : Letter) (m : Message) (delivery : Delivery) :
    d.Extends (d.handed l m delivery) := by
  cases delivery with
  | queued => exact { Extends.refl d with said := List.prefix_append _ _ }
  | closed => exact .refl d
  | waits => exact { Extends.refl d with }

theorem extends_answered (d : Docket) (ticket : Nat) (delivered : Bool) : d.Extends (d.answered ticket delivered) :=
  { Extends.refl d with said := List.prefix_append _ _ }

theorem extends_note (d : Docket) (s : ChannelServer) (e : ServerEvent) : d.Extends (d.note s e) := by
  cases e with
  | arrived n i => exact { Extends.refl d with arrived := fun m => prefix_update d.arrived n m i }
  | taken n =>
    exact { Extends.refl d with taken := le_update d.taken n, origins := List.prefix_append _ _ }
  | refused n =>
    simp only [note]
    split
    · split
      · exact d.extends_handed _ _ _
      · exact .refl d
    · exact .refl d
  | sent k =>
    simp only [note]
    split
    · split
      · split
        · exact .refl d
        · exact d.extends_handed _ _ _
      · exact .refl d
    · exact .refl d
  | resumed n =>
    simp only [note]
    split
    · exact d.extends_answered _ _
    · exact .refl d
  | forwarded n =>
    simp only [note]
    split
    · rename_i f _ _
      exact { Extends.refl d with forwarded := fun m => prefix_update d.forwarded n m f }
    · exact .refl d
  | _ => exact .refl d

theorem extends_step (h : d.step? e = some d') : d.Extends d' := by
  obtain ⟨s, -, rfl⟩ := step?_eq_some h
  exact { d.extends_note s e with }

/-- Only a receive loop takes letters and starts jobs for them, and only a forwarding loop takes frames. -/
theorem note_keeps (d : Docket) (s : ChannelServer) (e : ServerEvent) :
    ((∀ n, e ≠ .taken n) → (d.note s e).taken = d.taken ∧ (d.note s e).origins = d.origins) ∧
      ((∀ n, e ≠ .forwarded n) → (d.note s e).forwarded = d.forwarded) := by
  have hhanded : ∀ (l : Letter) (m : Message) (delivery : Delivery),
      ((d.handed l m delivery).taken = d.taken ∧ (d.handed l m delivery).origins = d.origins) ∧
        (d.handed l m delivery).forwarded = d.forwarded := by
    intro l m delivery
    cases delivery <;> exact ⟨⟨rfl, rfl⟩, rfl⟩
  have hboth : ∀ u : Docket, ((u.taken = d.taken ∧ u.origins = d.origins) ∧ u.forwarded = d.forwarded) →
      ((∀ n, e ≠ .taken n) → u.taken = d.taken ∧ u.origins = d.origins) ∧
        ((∀ n, e ≠ .forwarded n) → u.forwarded = d.forwarded) := fun u hu => ⟨fun _ => hu.1, fun _ => hu.2⟩
  cases e with
  | taken n => exact ⟨fun he => absurd rfl (he n), fun _ => rfl⟩
  | forwarded n =>
    refine ⟨fun _ => ?_, fun he => absurd rfl (he n)⟩
    simp only [note]
    split <;> exact ⟨rfl, rfl⟩
  | refused n =>
    refine hboth _ ?_
    simp only [note]
    split
    · split
      · exact hhanded ..
      · exact ⟨⟨rfl, rfl⟩, rfl⟩
    · exact ⟨⟨rfl, rfl⟩, rfl⟩
  | sent k =>
    refine hboth _ ?_
    simp only [note]
    split
    · split
      · split
        · exact ⟨⟨rfl, rfl⟩, rfl⟩
        · exact hhanded ..
      · exact ⟨⟨rfl, rfl⟩, rfl⟩
    · exact ⟨⟨rfl, rfl⟩, rfl⟩
  | resumed n =>
    refine hboth _ ?_
    simp only [note]
    split <;> exact ⟨⟨rfl, rfl⟩, rfl⟩
  | _ => exact ⟨fun _ => ⟨rfl, rfl⟩, fun _ => rfl⟩

end Docket
end FrameStream
