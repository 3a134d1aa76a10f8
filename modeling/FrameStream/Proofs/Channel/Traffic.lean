import FrameStream.Message
import FrameStream.Proofs.Channel.Queue

/-!
# What goes through the queues

Channels are opened, cancelled and forgotten in any order, messages are sent on any of them by whoever has a handle, and
the receiver of each takes frames out until it is dropped. `Traffic` is the book of channels with a record of what was
sent, what every send returned and what the receivers got. A send that found no room waits, and those who wait are woken
in no fixed order: room that came up belongs to the first of them, who may take it in any order.

On every channel the messages received and those still queued are, in order, the messages whose sends returned well;
every send returns once or still waits; and no queue ever holds more frames than it is deep.
-/

namespace FrameStream

/-- Whoever waits at a place goes on: the message takes room that came up for it, or is turned away if the channel is
closed; its number, and whether it got through. -/
def Outbound.resumeAt? (o : Outbound) (place : Nat) : Option (Nat × Bool × Outbound) :=
  match o.waiting[place]? with
  | none => none
  | some (ticket, text) =>
    if o.closed then some (ticket, false, { o with waiting := o.waiting.eraseIdx place })
    else if o.queued.length + place < o.depth then
      some (ticket, true, { o with waiting := o.waiting.eraseIdx place }.push (.text text))
    else none

/-- What happens on the channels of a book. -/
inductive TrafficEvent where
  | opened (conn : String)
  | closed (conn : String)
  | guardClosed (conn : String) (n : ChannelNumber)
  | cancelled (n : ChannelNumber)
  | pinged
  | shutDown
  /-- Somebody else gets a handle of a channel. -/
  | cloned (n : ChannelNumber)
  | dropped (n : ChannelNumber)
  | sent (n : ChannelNumber) (m : Message)
  | resumed (n : ChannelNumber) (place : Nat)
  | received (n : ChannelNumber)
  | receiverDropped (n : ChannelNumber)
  deriving Repr

/-- A book of channels and what went through their queues. -/
structure Traffic where
  book : ChannelBook
  /-- The messages that were sent, each with its channel; a send goes by its place here. -/
  sends : List (ChannelNumber × Message) := []
  /-- The sends that returned, in order, each with whether its message got through. -/
  returned : List (Nat × Bool) := []
  /-- The frames that were received, in order. -/
  received : List (ChannelNumber × OutFrame) := []

namespace Traffic

def start (depth : Nat) : Traffic := { book := .ofDepth depth }

/-- What a send returns at once, if it does. -/
def answer (k : Nat) : Delivery → List (Nat × Bool)
  | .queued => [(k, true)]
  | .closed => [(k, false)]
  | .waits => []

/-- A message is sent on a channel. -/
def send (t : Traffic) (n : ChannelNumber) (m : Message) : Traffic where
  book := (t.book.send n t.sends.length m.text).2
  sends := t.sends ++ [(n, m)]
  returned := t.returned ++ answer t.sends.length (t.book.send n t.sends.length m.text).1
  received := t.received

def step? (t : Traffic) : TrafficEvent → Option Traffic
  | .opened conn => some { t with book := (t.book.openChannel conn).2 }
  | .closed conn => some { t with book := (t.book.close conn).2 }
  | .guardClosed conn n => some { t with book := t.book.closeGuard conn n }
  | .cancelled n => some { t with book := t.book.cancel n }
  | .pinged => some { t with book := t.book.pingAll }
  | .shutDown => some { t with book := t.book.shutdownAll }
  | .cloned n => some { t with book := t.book.modify n Outbound.addSender }
  | .dropped n => some { t with book := t.book.modify n Outbound.dropSender }
  | .sent n m => if n < t.book.channels.length then some (t.send n m) else none
  | .resumed n place =>
    match t.book.channel? n with
    | some o => (o.resumeAt? place).map fun (k, ok, o) =>
      { t with book := t.book.modify n fun _ => o, returned := t.returned ++ [(k, ok)] }
    | none => none
  | .received n =>
    (t.book.take? n).map fun (f, book) => { t with book, received := t.received ++ [(n, f)] }
  | .receiverDropped n => some { t with book := t.book.modify n Outbound.dropReceiver }

def run? (t : Traffic) (es : List TrafficEvent) : Option Traffic := es.foldlM step? t

/-- The text of a send on a channel. -/
def textOn? (t : Traffic) (n : ChannelNumber) (k : Nat) : Option String :=
  (t.sends[k]?).bind fun s => if s.1 = n then some s.2.text else none

/-- The texts of the sends on a channel that returned well, in the order in which they did. -/
def deliveredOn (t : Traffic) (n : ChannelNumber) : List String :=
  (t.returned.filter (·.2)).filterMap fun a => t.textOn? n a.1

/-- The texts that the receiver of a channel got. -/
def receivedOn (t : Traffic) (n : ChannelNumber) : List String :=
  (t.received.filter (·.1 = n)).filterMap (·.2.text?)

/-- The sends that returned. -/
def answered (t : Traffic) : List Nat := t.returned.map (·.1)

end Traffic

variable {t t' : Traffic} {b : ChannelBook} {e : TrafficEvent} {n : ChannelNumber} {o o' : Outbound}
  {depth k place : Nat}

namespace Outbound

/-- The first in line goes on as it does where only the first is woken. -/
theorem resumeAt?_zero (o : Outbound) : o.resumeAt? 0 = o.resume? := by
  unfold resumeAt? resume?
  cases hw : o.waiting with
  | nil => rfl
  | cons first rest => rfl

theorem resumeAt?_eq_some {ok : Bool} :
    o.resumeAt? place = some (k, ok, o') ↔ ∃ text, o.waiting[place]? = some (k, text) ∧
      ((o.closed = true ∧ ok = false ∧ o' = { o with waiting := o.waiting.eraseIdx place }) ∨
        (o.closed = false ∧ o.queued.length + place < o.depth ∧ ok = true ∧
          o' = { o with waiting := o.waiting.eraseIdx place }.push (.text text))) := by
  unfold resumeAt?
  cases hw : o.waiting[place]? with
  | none => simp
  | some w =>
    obtain ⟨ticket, text⟩ := w
    cases hc : o.closed with
    | true => simp [eq_comm, and_assoc]
    | false =>
      by_cases hroom : o.queued.length + place < o.depth
      · simp [hroom, eq_comm, and_assoc]
      · simp [hroom]

end Outbound

/-! ## What one event does -/

namespace ChannelBook

theorem depth_openChannel (b : ChannelBook) (conn : String) : (b.openChannel conn).2.depth = b.depth := by
  unfold openChannel
  cases b.entries.get? conn <;> rfl

theorem depth_close (b : ChannelBook) (conn : String) : (b.close conn).2.depth = b.depth := by
  unfold close
  cases b.entries.get? conn <;> rfl

end ChannelBook

namespace Traffic

/-- What one event does to the queues and the record. -/
inductive Change (t : Traffic) : Traffic → Prop where
  /-- Nothing is sent and nobody goes on. -/
  | calm (book : ChannelBook) (calm : t.book.Calm book) (depth : book.depth = t.book.depth) : Change t { t with book }
  | opened (conn : String) : Change t { t with book := (t.book.openChannel conn).2 }
  /-- A message is turned away at once. -/
  | turnedAway (n : ChannelNumber) (m : Message) (o : Outbound) (at_ : t.book.channels[n]? = some o)
      (closed : o.closed = true) :
      Change t { t with sends := t.sends ++ [(n, m)], returned := t.returned ++ [(t.sends.length, false)] }
  /-- A message gets through at once. -/
  | queued (n : ChannelNumber) (m : Message) (o : Outbound) (at_ : t.book.channels[n]? = some o)
      (opened : o.closed = false) (room : o.queued.length + o.waiting.length < o.depth) :
      Change t { t with
        book := t.book.modify n fun _ => o.push (.text m.text)
        sends := t.sends ++ [(n, m)]
        returned := t.returned ++ [(t.sends.length, true)] }
  | waits (n : ChannelNumber) (m : Message) (o : Outbound) (at_ : t.book.channels[n]? = some o)
      (opened : o.closed = false) :
      Change t { t with
        book := t.book.modify n fun _ => { o with waiting := o.waiting ++ [(t.sends.length, m.text)] }
        sends := t.sends ++ [(n, m)] }
  /-- A message that waited is turned away. -/
  | refused (n : ChannelNumber) (place k : Nat) (text : String) (o : Outbound) (at_ : t.book.channels[n]? = some o)
      (waited : o.waiting[place]? = some (k, text)) (closed : o.closed = true) :
      Change t { t with
        book := t.book.modify n fun _ => { o with waiting := o.waiting.eraseIdx place }
        returned := t.returned ++ [(k, false)] }
  /-- A message that waited gets through. -/
  | admitted (n : ChannelNumber) (place k : Nat) (text : String) (o : Outbound) (at_ : t.book.channels[n]? = some o)
      (waited : o.waiting[place]? = some (k, text)) (opened : o.closed = false)
      (room : o.queued.length + place < o.depth) :
      Change t { t with
        book := t.book.modify n fun _ => { o with waiting := o.waiting.eraseIdx place }.push (.text text)
        returned := t.returned ++ [(k, true)] }
  | received (n : ChannelNumber) (f : OutFrame) (rest : List OutFrame) (o : Outbound)
      (at_ : t.book.channels[n]? = some o) (first : o.queued = f :: rest) :
      Change t { t with
        book := t.book.modify n fun _ => { o with queued := rest }
        received := t.received ++ [(n, f)] }

theorem modify_self_eq (ho : t.book.channels[n]? = some o) : (t.book.modify n fun _ => o) = t.book := by
  have hchannels : t.book.channels.modify n (fun _ => o) = t.book.channels := by
    refine List.ext_getElem? fun m => ?_
    rw [List.getElem?_modify]
    split
    · rename_i h
      rw [← h, ho]
      rfl
    · exact id_map' _
  rw [ChannelBook.modify, hchannels]

theorem change_sent {m : Message} (hn : n < t.book.channels.length) : Change t (t.send n m) := by
  have ho := List.getElem?_eq_getElem hn
  unfold send
  rw [ChannelBook.send_eq ho]
  rcases Outbound.send_cases _ t.sends.length m.text with ⟨hclosed, hsend⟩ | ⟨hopen, hroom, hsend⟩ | ⟨hopen, -, hsend⟩
  · rw [hsend]
    dsimp only
    rw [modify_self_eq ho]
    exact .turnedAway n m _ ho hclosed
  · rw [hsend]
    exact .queued n m _ ho hopen hroom
  · rw [hsend]
    simp only [answer, List.append_nil]
    exact .waits n m _ ho hopen

theorem step?_change (h : t.step? e = some t') : Change t t' := by
  cases e with
  | opened conn =>
    cases h
    exact .opened conn
  | closed conn =>
    cases h
    exact .calm _ (t.book.calm_close conn) (t.book.depth_close conn)
  | guardClosed conn n =>
    cases h
    exact .calm _ (t.book.calm_closeGuard conn n) ((t.book.cancel n).depth_close conn)
  | cancelled n =>
    cases h
    exact .calm _ (t.book.calm_cancel n) rfl
  | pinged =>
    cases h
    exact .calm _ t.book.calm_pingAll (t.book.depth_modifyOpen _)
  | shutDown =>
    cases h
    exact .calm _ t.book.calm_shutdownAll (t.book.depth_modifyOpen _)
  | cloned n =>
    cases h
    exact .calm _ (ChannelBook.calm_modify Outbound.calm_addSender _ n) rfl
  | dropped n =>
    cases h
    exact .calm _ (ChannelBook.calm_modify Outbound.calm_dropSender _ n) rfl
  | receiverDropped n =>
    cases h
    exact .calm _ (ChannelBook.calm_modify Outbound.calm_dropReceiver _ n) rfl
  | sent n m =>
    simp only [step?, Option.ite_none_right_eq_some, Option.some.injEq] at h
    obtain ⟨hn, rfl⟩ := h
    exact change_sent hn
  | resumed n place =>
    simp only [step?, ChannelBook.channel?] at h
    split at h
    · rename_i o ho
      obtain ⟨⟨k, ok, o'⟩, hresume, rfl⟩ := Option.map_eq_some_iff.mp h
      obtain ⟨text, hwaited, ⟨hclosed, rfl, rfl⟩ | ⟨hopen, hroom, rfl, rfl⟩⟩ := Outbound.resumeAt?_eq_some.mp hresume
      · exact .refused n place k text o ho hwaited hclosed
      · exact .admitted n place k text o ho hwaited hopen hroom
    · cases h
  | received n =>
    obtain ⟨⟨f, book⟩, htake, rfl⟩ := Option.map_eq_some_iff.mp h
    unfold ChannelBook.take? ChannelBook.channel? at htake
    split at htake
    · rename_i o ho
      obtain ⟨⟨f', o'⟩, hfound, hpair⟩ := Option.map_eq_some_iff.mp htake
      cases hpair
      obtain ⟨rest, hfirst, rfl⟩ := Outbound.take?_eq_some.mp hfound
      exact .received n f rest o ho hfirst
    · cases htake

end Traffic
end FrameStream
