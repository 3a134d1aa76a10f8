import Mathlib.Data.List.Basic
import Mathlib.Data.List.Nodup
import FrameStream.Proofs.Channel.Traffic
import FrameStream.Proofs.Places

/-!
# The record of what was sent

Whatever happens on the channels, their queues agree with the record: what was received and what is queued is, in order,
what got through, and the sends that have not returned are those that wait. An event sends, returns or receives on one
channel at most; for that channel the agreement is shown case by case, and for all others the record goes on aside.
-/

namespace FrameStream
namespace Traffic

variable {t t' : Traffic} {e : TrafficEvent} {n : ChannelNumber} {o o' : Outbound} {k place : Nat}

/-! ## The record -/

theorem textOn?_eq_some {text : String} :
    t.textOn? n k = some text ↔ ∃ m, t.sends[k]? = some (n, m) ∧ m.text = text := by
  unfold textOn?
  constructor
  · intro h
    obtain ⟨⟨c, m⟩, hs, htext⟩ := Option.bind_eq_some_iff.mp h
    simp only [Option.ite_none_right_eq_some, Option.some.injEq] at htext
    exact ⟨m, htext.1 ▸ hs, htext.2⟩
  · rintro ⟨m, hs, rfl⟩
    simp [hs]

theorem textOn?_of_sends (h : t.sends <+: t'.sends) (hk : k < t.sends.length) : t'.textOn? n k = t.textOn? n k := by
  obtain ⟨more, hmore⟩ := h
  rw [textOn?, textOn?, ← hmore, List.getElem?_append_left hk]

theorem send_stays {s : ChannelNumber × Message} (h : t.sends <+: t'.sends) (hk : t.sends[k]? = some s) :
    t'.sends[k]? = some s := by
  obtain ⟨more, hmore⟩ := h
  rw [← hmore, List.getElem?_append_left (List.getElem?_eq_some_iff.mp hk).1]
  exact hk

/-- Every send that returned was made. -/
def Known (t : Traffic) : Prop := ∀ a ∈ t.returned, a.1 < t.sends.length

theorem deliveredOn_append {new : List (Nat × Bool)} (hknown : t.Known) (hsends : t.sends <+: t'.sends)
    (hreturned : t'.returned = t.returned ++ new) (n : ChannelNumber) :
    t'.deliveredOn n = t.deliveredOn n ++ (new.filter (·.2)).filterMap fun a => t'.textOn? n a.1 := by
  unfold deliveredOn
  rw [hreturned, List.filter_append, List.filterMap_append]
  congr 1
  refine List.filterMap_congr fun a ha => ?_
  exact textOn?_of_sends hsends (hknown a (List.mem_of_mem_filter ha))

theorem Known.append {sends : List (ChannelNumber × Message)} {new : List (Nat × Bool)} (h : t.Known)
    (hsends : t'.sends = t.sends ++ sends) (hreturned : t'.returned = t.returned ++ new)
    (hnew : ∀ a ∈ new, ∃ s, t'.sends[a.1]? = some s) : t'.Known := by
  intro a ha
  rw [hreturned, List.mem_append] at ha
  rcases ha with ha | ha
  · have hlt := h a ha
    rw [hsends, List.length_append]
    omega
  · obtain ⟨s, hs⟩ := hnew a ha
    exact (List.getElem?_eq_some_iff.mp hs).1

/-- What one receiver takes is nothing to the others. -/
theorem receivedOn_of_ne {m : ChannelNumber} {frames : List OutFrame}
    (h : t'.received = t.received ++ frames.map (n, ·)) (hm : n ≠ m) : t'.receivedOn m = t.receivedOn m := by
  have hnone : (frames.map (n, ·)).filter (·.1 = m) = [] := by
    refine List.filter_eq_nil_iff.mpr fun r hr => ?_
    obtain ⟨f, -, rfl⟩ := List.mem_map.mp hr
    simpa using hm
  rw [receivedOn, h, List.filter_append, hnone, List.append_nil, receivedOn]

theorem answered_append {new : List (Nat × Bool)} (h : t'.returned = t.returned ++ new) :
    t'.answered = t.answered ++ new.map (·.1) := by
  rw [answered, h, List.map_append, answered]

/-- The sends on a channel that have not returned are those that wait, each with its message. -/
structure Line (t : Traffic) (n : ChannelNumber) (o : Outbound) : Prop where
  sent : ∀ w ∈ o.waiting, ∃ m, t.sends[w.1]? = some (n, m) ∧ w.2 = m.text
  pending : ∀ w ∈ o.waiting, w.1 ∉ t.answered
  tickets : o.tickets.Nodup
  waits : ∀ k m, t.sends[k]? = some (n, m) → k ∉ t.answered → (k, m.text) ∈ o.waiting

/-- The record and the queue of a channel agree. -/
structure Agrees (t : Traffic) (n : ChannelNumber) (o : Outbound) : Prop where
  depth : o.depth = t.book.depth
  bounded : o.queued.length ≤ o.depth
  idle : o.Idle
  /-- What was received and what is queued is what got through. -/
  texts : o.receiving = true → t.receivedOn n ++ o.texts = t.deliveredOn n
  line : t.Line n o

/-- The record and all queues agree. -/
structure Sound (t : Traffic) : Prop where
  deep : 0 < t.book.depth
  known : t.Known
  once : t.answered.Nodup
  channel : ∀ s ∈ t.sends, s.1 < t.book.channels.length
  receiver : ∀ r ∈ t.received, r.1 < t.book.channels.length
  agrees : ∀ (n : ChannelNumber) (o : Outbound), t.book.channels[n]? = some o → t.Agrees n o

theorem sound_start (depth : Nat) : (start depth).Sound where
  deep := Nat.lt_of_lt_of_le Nat.zero_lt_one (Nat.le_max_right depth 1)
  known _ h := nomatch h
  once := List.nodup_nil
  channel _ h := nomatch h
  receiver _ h := nomatch h
  agrees _ _ h := nomatch h

/-! ## What one event leaves alone -/

/-- For one channel, the record goes on with nothing sent, returned or received. -/
structure Aside (t t' : Traffic) (n : ChannelNumber) : Prop where
  depth : t'.book.depth = t.book.depth
  received : t'.receivedOn n = t.receivedOn n
  delivered : t'.deliveredOn n = t.deliveredOn n
  sends : ∀ k m, t'.sends[k]? = some (n, m) → k ∉ t'.answered → t.sends[k]? = some (n, m)
  sent : t.sends <+: t'.sends
  answered : ∀ k m, t.sends[k]? = some (n, m) → (k ∈ t'.answered ↔ k ∈ t.answered)

theorem aside_of_book {book : ChannelBook} (hdepth : book.depth = t.book.depth) (n : ChannelNumber) :
    t.Aside { t with book } n where
  depth := hdepth
  received := rfl
  delivered := rfl
  sends _ _ hk _ := hk
  sent := List.prefix_rfl
  answered _ _ _ := Iff.rfl

theorem Line.aside (h : t.Line n o) (ha : t.Aside t' n) : t'.Line n o where
  sent w hw := by
    obtain ⟨m, hm, htext⟩ := h.sent w hw
    exact ⟨m, send_stays ha.sent hm, htext⟩
  pending w hw hanswered := by
    obtain ⟨m, hm, -⟩ := h.sent w hw
    exact h.pending w hw ((ha.answered w.1 m hm).mp hanswered)
  tickets := h.tickets
  waits k m hk hopen := by
    have hold := ha.sends k m hk hopen
    exact h.waits k m hold fun hanswered => hopen ((ha.answered k m hold).mpr hanswered)

theorem Agrees.aside (h : t.Agrees n o) (ha : t.Aside t' n) : t'.Agrees n o where
  depth := h.depth.trans ha.depth.symm
  bounded := h.bounded
  idle := h.idle
  texts hr := by rw [ha.received, ha.delivered, h.texts hr]
  line := h.line.aside ha

theorem Line.congr (h : t.Line n o) (hw : o'.waiting = o.waiting) : t.Line n o' where
  sent := hw ▸ h.sent
  pending := hw ▸ h.pending
  tickets := by
    rw [Outbound.tickets, hw]
    exact h.tickets
  waits := hw ▸ h.waits

theorem Agrees.calm (h : t.Agrees n o) (hcalm : o.Calm o') : t.Agrees n o' where
  depth := hcalm.depth.trans h.depth
  bounded := by
    have hdepth := hcalm.depth
    have hbounded := h.bounded
    rcases hcalm.room with hroom | hroom
    · omega
    · omega
  idle := hcalm.idle h.idle
  texts hr := by rw [hcalm.texts hr, h.texts (hcalm.receiving hr).1]
  line := h.line.congr hcalm.waiting

/-- Nothing gets through on a channel, and its queue stays as it is. -/
theorem Agrees.still (h : t.Agrees n o) (hdepth : t'.book.depth = t.book.depth)
    (hreceived : t'.receivedOn n = t.receivedOn n) (hdelivered : t'.deliveredOn n = t.deliveredOn n)
    (hsame : o'.depth = o.depth ∧ o'.queued = o.queued ∧ o'.receiving = o.receiving) (hline : t'.Line n o') :
    t'.Agrees n o' := by
  obtain ⟨hdepth', hqueued, hreceiving⟩ := hsame
  exact {
    depth := hdepth'.trans (h.depth.trans hdepth.symm)
    bounded := by
      rw [hqueued, hdepth']
      exact h.bounded
    idle := fun hr => hqueued.trans (h.idle (hreceiving.symm.trans hr))
    texts := fun hr => by
      rw [hreceived, hdelivered, Outbound.texts, hqueued]
      exact h.texts (hreceiving.symm.trans hr)
    line := hline }

theorem texts_push (o : Outbound) (text : String) : (o.push (.text text)).texts = o.texts ++ [text] := by
  simp [Outbound.texts, Outbound.push, OutFrame.text?]

theorem idle_of_open (h : o.closed = false) (hr : o.receiving = false) : False := by
  rw [Outbound.closed, hr] at h
  simp at h

/-- A message gets through on a channel and is pushed into its queue. -/
theorem Agrees.pushed {p : Outbound} {text : String} (h : t.Agrees n o) (hdepth : t'.book.depth = t.book.depth)
    (hreceived : t'.receivedOn n = t.receivedOn n) (hdelivered : t'.deliveredOn n = t.deliveredOn n ++ [text])
    (hsame : p.depth = o.depth ∧ p.queued = o.queued ∧ p.receiving = o.receiving) (hopened : p.closed = false)
    (hroom : o.queued.length < o.depth) (hline : t'.Line n (p.push (.text text))) :
    t'.Agrees n (p.push (.text text)) := by
  obtain ⟨hdepth', hqueued, hreceiving⟩ := hsame
  exact {
    depth := hdepth'.trans (h.depth.trans hdepth.symm)
    bounded := by
      show (p.queued ++ [OutFrame.text text]).length ≤ p.depth
      rw [hqueued, hdepth', List.length_append, List.length_singleton]
      omega
    idle := fun hr => (idle_of_open hopened hr).elim
    texts := fun hr => by
      have htexts := h.texts (hreceiving.symm.trans hr)
      rw [Outbound.texts, ← hqueued] at htexts
      rw [hreceived, hdelivered, texts_push, ← List.append_assoc, Outbound.texts, htexts]
    line := hline }

/-- The receiver of a channel takes the first frame of its queue. -/
theorem Agrees.taken {f : OutFrame} {rest : List OutFrame} (h : t.Agrees n o) (hfirst : o.queued = f :: rest)
    (hdepth : t'.book.depth = t.book.depth) (hreceived : t'.received = t.received ++ [(n, f)])
    (hdelivered : t'.deliveredOn n = t.deliveredOn n) (hline : t'.Line n o) :
    t'.Agrees n { o with queued := rest } where
  depth := h.depth.trans hdepth.symm
  bounded := by
    have hbounded := h.bounded
    rw [hfirst, List.length_cons] at hbounded
    exact Nat.le_of_succ_le hbounded
  idle hr := by
    have hidle := h.idle hr
    rw [hfirst] at hidle
    cases hidle
  texts hr := by
    have htexts := h.texts hr
    rw [Outbound.texts, hfirst] at htexts
    have hown : t'.received.filter (·.1 = n) = t.received.filter (·.1 = n) ++ [(n, f)] := by simp [hreceived]
    rw [hdelivered, ← htexts, receivedOn, hown, List.filterMap_append, List.append_assoc, receivedOn]
    congr 1
    cases f <;> rfl
  line := hline.congr rfl

/-! ## Every event keeps record and queues in agreement -/

/-- The record goes on with sends and returns of one channel alone. -/
theorem aside_of_ne {m : ChannelNumber} {sends : List (ChannelNumber × Message)} {returned : List (Nat × Bool)}
    (h : t.Sound) (hdepth : t'.book.depth = t.book.depth) (hreceived : t'.receivedOn m = t.receivedOn m)
    (hsends : t'.sends = t.sends ++ sends) (hreturned : t'.returned = t.returned ++ returned)
    (hsent : ∀ s ∈ sends, s.1 ≠ m)
    (hnew : ∀ a ∈ returned, ∃ s, t'.sends[a.1]? = some s ∧ s.1 ≠ m) : t.Aside t' m where
  depth := hdepth
  received := hreceived
  delivered := by
    rw [deliveredOn_append h.known ⟨sends, hsends.symm⟩ hreturned]
    have hnone : (returned.filter (·.2)).filterMap (fun a => t'.textOn? m a.1) = [] := by
      refine List.filterMap_eq_nil_iff.mpr fun a ha => ?_
      obtain ⟨s, hs, hm⟩ := hnew a (List.mem_of_mem_filter ha)
      rw [textOn?, hs]
      exact if_neg hm
    rw [hnone, List.append_nil]
  sends k message hk _ := by
    rw [hsends, List.getElem?_append] at hk
    split at hk
    · exact hk
    · exact absurd rfl (hsent _ (List.mem_of_getElem? hk))
  sent := ⟨sends, hsends.symm⟩
  answered k message hk := by
    rw [answered_append hreturned, List.mem_append]
    refine ⟨fun hmem => hmem.resolve_right fun hin => ?_, .inl⟩
    obtain ⟨a, ha, rfl⟩ := List.mem_map.mp hin
    obtain ⟨s, hs, hm⟩ := hnew a ha
    rw [send_stays ⟨sends, hsends.symm⟩ hk] at hs
    cases hs
    exact hm rfl

/-- What is left to show when one queue changes and the record goes on for its channel alone. -/
theorem Sound.set (h : t.Sound) (sends : List (ChannelNumber × Message)) (returned : List (Nat × Bool))
    (ho : t.book.channels[n]? = some o) (hbook : t'.book = t.book.modify n fun _ => o')
    (hreceived : ∃ frames : List OutFrame, t'.received = t.received ++ frames.map (n, ·))
    (hsends : t'.sends = t.sends ++ sends) (hreturned : t'.returned = t.returned ++ returned)
    (hsent : ∀ s ∈ sends, s.1 = n)
    (hnew : ∀ a ∈ returned, (∃ m, t'.sends[a.1]? = some (n, m)) ∧ a.1 ∉ t.answered)
    (honce : (returned.map (·.1)).Nodup) (hself : t'.Known → t'.Agrees n o') : t'.Sound := by
  have hlength : t'.book.channels.length = t.book.channels.length := by
    rw [hbook]
    exact List.length_modify ..
  have hknown : t'.Known := h.known.append hsends hreturned fun a ha => by
    obtain ⟨⟨m, hm⟩, -⟩ := hnew a ha
    exact ⟨_, hm⟩
  have hn : n < t.book.channels.length := (List.getElem?_eq_some_iff.mp ho).1
  obtain ⟨frames, hreceived⟩ := hreceived
  refine ⟨by rw [hbook]; exact h.deep, hknown, ?_, ?_, ?_, ?_⟩
  · rw [answered_append hreturned]
    refine List.nodup_append.mpr ⟨h.once, honce, fun k hk k' hk' heq => ?_⟩
    obtain ⟨a, ha, rfl⟩ := List.mem_map.mp hk'
    exact (hnew a ha).2 (heq ▸ hk)
  · intro s hs
    rw [hsends, List.mem_append] at hs
    rw [hlength]
    rcases hs with hs | hs
    · exact h.channel s hs
    · exact hsent s hs ▸ hn
  · intro r hr
    rw [hreceived, List.mem_append] at hr
    rw [hlength]
    rcases hr with hr | hr
    · exact h.receiver r hr
    · obtain ⟨f, -, rfl⟩ := List.mem_map.mp hr
      exact hn
  · rw [hbook]
    refine ChannelBook.forall_set ho (hself hknown) fun m p hm hp => ?_
    refine (h.agrees m p hp).aside (aside_of_ne h (by rw [hbook]; rfl) (receivedOn_of_ne hreceived hm) hsends
      hreturned (fun s hs => hsent s hs ▸ hm) fun a ha => ?_)
    obtain ⟨⟨message, hmessage⟩, -⟩ := hnew a ha
    exact ⟨_, hmessage, hm⟩

/-! ### The channel on which something is sent or returns -/

theorem deliveredOn_false (hknown : t.Known) (hsends : t.sends <+: t'.sends)
    (hreturned : t'.returned = t.returned ++ [(k, false)]) : t'.deliveredOn n = t.deliveredOn n := by
  rw [deliveredOn_append hknown hsends hreturned]
  exact List.append_nil _

theorem deliveredOn_none (hknown : t.Known) (hsends : t.sends <+: t'.sends) (hreturned : t'.returned = t.returned) :
    t'.deliveredOn n = t.deliveredOn n := by
  rw [deliveredOn_append hknown hsends (hreturned.trans (List.append_nil _).symm)]
  exact List.append_nil _

theorem deliveredOn_true {m : Message} (hknown : t.Known) (hsends : t.sends <+: t'.sends)
    (hreturned : t'.returned = t.returned ++ [(k, true)]) (hk : t'.sends[k]? = some (n, m)) :
    t'.deliveredOn n = t.deliveredOn n ++ [m.text] := by
  have htext : t'.textOn? n k = some m.text := textOn?_eq_some.mpr ⟨m, hk, rfl⟩
  rw [deliveredOn_append hknown hsends hreturned]
  simp [htext]

/-- A send that returns at once leaves the line as it is. -/
theorem Line.at_once {m : Message} {ok : Bool} (h : t.Line n o) (hsends : t'.sends = t.sends ++ [(n, m)])
    (hreturned : t'.returned = t.returned ++ [(t.sends.length, ok)]) : t'.Line n o := by
  have hanswered := answered_append hreturned
  refine ⟨fun w hw => ?_, fun w hw => ?_, h.tickets, fun k message hk hopen => ?_⟩
  · obtain ⟨message, hmessage, htext⟩ := h.sent w hw
    exact ⟨message, send_stays ⟨_, hsends.symm⟩ hmessage, htext⟩
  · obtain ⟨message, hmessage, -⟩ := h.sent w hw
    have hlt := (List.getElem?_eq_some_iff.mp hmessage).1
    rw [hanswered, List.mem_append, List.map_singleton, List.mem_singleton]
    rintro (hmem | heq)
    · exact h.pending w hw hmem
    · exact Nat.ne_of_lt hlt heq
  · rw [hanswered, List.mem_append, List.map_singleton, List.mem_singleton] at hopen
    rw [hsends] at hk
    rcases getElem?_concat_eq_some hk with hk | ⟨heq, -⟩
    · exact h.waits k message hk fun hmem => hopen (.inl hmem)
    · exact absurd (.inr heq) hopen

/-- A send that finds no room joins the line. -/
theorem Line.joins {m : Message} (h : t.Line n o) (hknown : t.Known) (hsends : t'.sends = t.sends ++ [(n, m)])
    (hreturned : t'.returned = t.returned) (hwaiting : o'.waiting = o.waiting ++ [(t.sends.length, m.text)]) :
    t'.Line n o' := by
  have hanswered : t'.answered = t.answered := by rw [answered, hreturned, answered]
  have hnew : t'.sends[t.sends.length]? = some (n, m) := by rw [hsends, List.getElem?_concat_length]
  refine ⟨fun w hw => ?_, fun w hw => ?_, ?_, fun k message hk hopen => ?_⟩
  · rw [hwaiting, List.mem_append, List.mem_singleton] at hw
    rcases hw with hw | rfl
    · obtain ⟨message, hmessage, htext⟩ := h.sent w hw
      exact ⟨message, send_stays ⟨_, hsends.symm⟩ hmessage, htext⟩
    · exact ⟨m, hnew, rfl⟩
  · rw [hanswered]
    rw [hwaiting, List.mem_append, List.mem_singleton] at hw
    rcases hw with hw | rfl
    · exact h.pending w hw
    · intro hmem
      obtain ⟨a, ha, hlength⟩ := List.mem_map.mp hmem
      exact Nat.ne_of_lt (hknown a ha) hlength
  · rw [Outbound.tickets, hwaiting, List.map_append]
    refine List.nodup_append.mpr ⟨h.tickets, List.nodup_singleton _, fun k hk k' hk' => ?_⟩
    obtain ⟨w, hw, rfl⟩ := List.mem_map.mp hk
    obtain ⟨message, hmessage, -⟩ := h.sent w hw
    rw [List.map_singleton, List.mem_singleton] at hk'
    rw [hk']
    exact Nat.ne_of_lt (List.getElem?_eq_some_iff.mp hmessage).1
  · rw [hanswered] at hopen
    rw [hwaiting, List.mem_append, List.mem_singleton]
    rw [hsends] at hk
    rcases getElem?_concat_eq_some hk with hk | ⟨rfl, heq⟩
    · exact .inl (h.waits k message hk hopen)
    · cases heq
      exact .inr rfl

/-- A send that returns after it waited leaves the line, from whatever place. -/
theorem Line.leaves {text : String} {ok : Bool} (h : t.Line n o) (hplace : o.waiting[place]? = some (k, text))
    (hsends : t'.sends = t.sends) (hreturned : t'.returned = t.returned ++ [(k, ok)])
    (hwaiting : o'.waiting = o.waiting.eraseIdx place) : t'.Line n o' := by
  have hanswered := answered_append hreturned
  have hticket : o.tickets[place]? = some k := by rw [Outbound.tickets, List.getElem?_map, hplace]; rfl
  refine ⟨fun w hw => ?_, fun w hw => ?_, ?_, fun k' message hk hopen => ?_⟩
  · rw [hsends]
    rw [hwaiting] at hw
    exact h.sent w (List.mem_of_mem_eraseIdx hw)
  · rw [hwaiting, List.mem_eraseIdx_iff_getElem?] at hw
    obtain ⟨i, hi, hw⟩ := hw
    rw [hanswered, List.mem_append, List.map_singleton, List.mem_singleton]
    rintro (hmem | heq)
    · exact h.pending w (List.mem_of_getElem? hw) hmem
    · have hi' : o.tickets[i]? = some w.1 := by rw [Outbound.tickets, List.getElem?_map, hw]; rfl
      have hlt := (List.getElem?_eq_some_iff.mp hi').1
      exact hi ((List.getElem?_inj hlt h.tickets).mp (by rw [hi', hticket, heq]))
  · rw [Outbound.tickets, hwaiting]
    exact h.tickets.sublist ((List.eraseIdx_sublist o.waiting place).map _)
  · rw [hanswered, List.mem_append, List.map_singleton, List.mem_singleton] at hopen
    rw [hsends] at hk
    rw [hwaiting, List.mem_eraseIdx_iff_getElem?]
    obtain ⟨i, hi⟩ := List.getElem?_of_mem (h.waits k' message hk fun hmem => hopen (.inl hmem))
    refine ⟨i, fun heq => hopen (.inr ?_), hi⟩
    rw [heq, hplace] at hi
    cases hi
    rfl

/-! ### One event -/

theorem Sound.calm (h : t.Sound) {book : ChannelBook} (hcalm : t.book.Calm book) (hdepth : book.depth = t.book.depth) :
    ({ t with book } : Traffic).Sound where
  deep := hdepth.symm ▸ h.deep
  known := h.known
  once := h.once
  channel s hs := hcalm.length.symm ▸ h.channel s hs
  receiver r hr := hcalm.length.symm ▸ h.receiver r hr
  agrees n o' ho' := by
    obtain ⟨o, ho, hqueue⟩ := hcalm.each n o' ho'
    exact ((h.agrees n o ho).calm hqueue).aside (aside_of_book hdepth n)

/-- Nothing was ever sent or received on a channel before it is opened. -/
theorem Sound.silent_before (h : t.Sound) (hn : t.book.channels.length ≤ n) :
    (∀ (k : Nat) (m : Message), t.sends[k]? ≠ some (n, m)) ∧ t.receivedOn n = [] ∧ t.deliveredOn n = [] := by
  have hnone : ∀ (k : Nat) (m : Message), t.sends[k]? ≠ some (n, m) := fun k m hk =>
    Nat.not_lt.mpr hn (h.channel _ (List.mem_of_getElem? hk))
  refine ⟨hnone, ?_, ?_⟩
  · have hreceived : t.received.filter (·.1 = n) = [] := by
      refine List.filter_eq_nil_iff.mpr fun r hr heq => ?_
      exact Nat.not_lt.mpr hn (of_decide_eq_true heq ▸ h.receiver r hr)
    rw [receivedOn, hreceived]
    rfl
  · refine List.filterMap_eq_nil_iff.mpr fun a _ => ?_
    cases htext : t.textOn? n a.1 with
    | none => rfl
    | some text =>
      obtain ⟨m, hm, -⟩ := textOn?_eq_some.mp htext
      exact absurd hm (hnone a.1 m)

theorem Sound.opened (h : t.Sound) (conn : String) :
    ({ t with book := (t.book.openChannel conn).2 } : Traffic).Sound := by
  obtain ⟨b, hcalm, -, hchannels⟩ := t.book.exists_openChannel conn
  have hdepth := t.book.depth_openChannel conn
  have hlength : t.book.channels.length ≤ (t.book.openChannel conn).2.channels.length := by
    rw [hchannels, List.length_append, hcalm.length]
    exact Nat.le_add_right _ _
  refine ⟨hdepth.symm ▸ h.deep, h.known, h.once, fun s hs => Nat.lt_of_lt_of_le (h.channel s hs) hlength,
    fun r hr => Nat.lt_of_lt_of_le (h.receiver r hr) hlength, fun n o' ho' => ?_⟩
  refine Agrees.aside ?_ (aside_of_book hdepth n)
  rw [hchannels] at ho'
  rcases getElem?_concat_eq_some ho' with ho' | ⟨rfl, rfl⟩
  · obtain ⟨o, ho, hqueue⟩ := hcalm.each n o' ho'
    exact (h.agrees n o ho).calm hqueue
  · obtain ⟨hnone, hreceived, hdelivered⟩ := h.silent_before (Nat.le_of_eq hcalm.length.symm)
    exact {
      depth := Nat.max_eq_left h.deep
      bounded := Nat.zero_le _
      idle := fun _ => rfl
      texts := fun _ => by rw [hreceived, hdelivered]; rfl
      line := {
        sent := fun _ hw => nomatch hw
        pending := fun _ hw => nomatch hw
        tickets := List.nodup_nil
        waits := fun k m hk => absurd hk (hnone k m) } }

/-- A send that is made now has not returned. -/
theorem Sound.fresh (h : t.Sound) : t.sends.length ∉ t.answered := by
  intro hmem
  obtain ⟨a, ha, hlength⟩ := List.mem_map.mp hmem
  exact Nat.ne_of_lt (h.known a ha) hlength

theorem Sound.at_once {m : Message} {ok : Bool} (h : t.Sound) (ho : t.book.channels[n]? = some o)
    (hbook : t'.book = t.book.modify n fun _ => o') (hsends : t'.sends = t.sends ++ [(n, m)])
    (hreturned : t'.returned = t.returned ++ [(t.sends.length, ok)]) (hreceived : t'.received = t.received)
    (hself : t'.Agrees n o') : t'.Sound := by
  refine h.set _ _ ho hbook ⟨[], by simpa using hreceived⟩ hsends hreturned
    (fun s hs => by rw [List.mem_singleton.mp hs]) (fun a ha => ?_) (List.nodup_singleton _) fun _ => hself
  rw [List.mem_singleton.mp ha, hsends]
  exact ⟨⟨m, List.getElem?_concat_length⟩, h.fresh⟩

theorem Sound.later {text : String} {ok : Bool} (h : t.Sound) (ho : t.book.channels[n]? = some o)
    (hplace : o.waiting[place]? = some (k, text)) (hbook : t'.book = t.book.modify n fun _ => o')
    (hsends : t'.sends = t.sends) (hreturned : t'.returned = t.returned ++ [(k, ok)])
    (hreceived : t'.received = t.received) (hself : t'.Agrees n o') : t'.Sound := by
  have hline := (h.agrees n o ho).line
  refine h.set [] _ ho hbook ⟨[], by simpa using hreceived⟩ (by simpa using hsends) hreturned
    (fun s hs => nomatch hs) (fun a ha => ?_) (List.nodup_singleton _) fun _ => hself
  rw [List.mem_singleton.mp ha, hsends]
  obtain ⟨m, hm, -⟩ := hline.sent _ (List.mem_of_getElem? hplace)
  exact ⟨⟨m, hm⟩, hline.pending _ (List.mem_of_getElem? hplace)⟩

theorem Sound.step (h : t.Sound) (hs : t.step? e = some t') : t'.Sound := by
  cases step?_change hs with
  | calm book calm depth => exact h.calm calm depth
  | opened conn => exact h.opened conn
  | turnedAway n m o at_ closed =>
    have hagrees := h.agrees n o at_
    exact h.at_once at_ (modify_self_eq at_).symm rfl rfl rfl
      (hagrees.still rfl rfl (deliveredOn_false h.known ⟨_, rfl⟩ rfl) ⟨rfl, rfl, rfl⟩ (hagrees.line.at_once rfl rfl))
  | queued n m o at_ opened room =>
    have hagrees := h.agrees n o at_
    exact h.at_once at_ rfl rfl rfl rfl
      (hagrees.pushed rfl rfl (deliveredOn_true h.known ⟨_, rfl⟩ rfl List.getElem?_concat_length) ⟨rfl, rfl, rfl⟩ opened
        (by omega) ((hagrees.line.at_once rfl rfl).congr rfl))
  | waits n m o at_ opened =>
    have hagrees := h.agrees n o at_
    exact h.set _ [] at_ rfl ⟨[], (List.append_nil _).symm⟩ rfl (List.append_nil _).symm
      (fun s hs => by rw [List.mem_singleton.mp hs]) (fun a ha => nomatch ha) List.nodup_nil fun _ =>
        hagrees.still rfl rfl (deliveredOn_none h.known ⟨_, rfl⟩ rfl) ⟨rfl, rfl, rfl⟩
          (hagrees.line.joins h.known rfl rfl rfl)
  | refused n place k text o at_ waited closed =>
    have hagrees := h.agrees n o at_
    exact h.later at_ waited rfl rfl rfl rfl
      (hagrees.still rfl rfl (deliveredOn_false h.known ⟨[], List.append_nil _⟩ rfl) ⟨rfl, rfl, rfl⟩
        (hagrees.line.leaves waited rfl rfl rfl))
  | admitted n place k text o at_ waited opened room =>
    have hagrees := h.agrees n o at_
    obtain ⟨m, hm, rfl⟩ := hagrees.line.sent _ (List.mem_of_getElem? waited)
    exact h.later at_ waited rfl rfl rfl rfl
      (hagrees.pushed rfl rfl (deliveredOn_true h.known ⟨[], List.append_nil _⟩ rfl hm) ⟨rfl, rfl, rfl⟩ opened
        (by omega) (hagrees.line.leaves waited rfl rfl rfl))
  | received n f rest o at_ first =>
    have hagrees := h.agrees n o at_
    have hline := hagrees.line
    exact h.set [] [] at_ rfl ⟨[f], rfl⟩ (List.append_nil _).symm (List.append_nil _).symm
      (fun s hs => nomatch hs) (fun a ha => nomatch ha) List.nodup_nil fun _ =>
        hagrees.taken first rfl rfl rfl ⟨hline.sent, hline.pending, hline.tickets, hline.waits⟩

theorem run?_cons {es : List TrafficEvent} : t.run? (e :: es) = (t.step? e).bind (·.run? es) := List.foldlM_cons

theorem sound_run {es : List TrafficEvent} (h : t.Sound) (hr : t.run? es = some t') : t'.Sound := by
  induction es generalizing t with
  | nil =>
    cases hr
    exact h
  | cons e es ih =>
    rw [run?_cons] at hr
    obtain ⟨u, hu, hr⟩ := Option.bind_eq_some_iff.mp hr
    exact ih (h.step hu) hr

end Traffic
end FrameStream
