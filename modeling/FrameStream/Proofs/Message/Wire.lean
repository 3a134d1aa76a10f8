import FrameStream.Message
import FrameStream.Proofs.Json.Rereading

/-!
# What a client makes of a message

A client reads the text of a message as JSON and learns the message's key, index and status from the members alone. The
text determines the message, but for one thing: a unit that failed looks like a unit whose result is an error under the
same words.
-/

namespace FrameStream

namespace Json

/-- The key a client finds in a message. -/
def keyOf? (v : Json) : Option String :=
  match v.get? "key" with
  | some (.string key) => some key
  | _ => none

/-- The index a client finds in a message. -/
def indexOf? (v : Json) : Option SequenceIndex := (v.get? "index").bind natural?

/-- The status a client finds in a message. -/
def statusOf? (v : Json) : Option JobStatus :=
  match v.get? "status" with
  | some (.string word) => [JobStatus.accepted, .error, .rejected].find? fun s => s.word = word
  | _ => none

end Json

namespace Message

variable {m m' : Message}

/-- What a client reads: the members of the message in the order of their names. -/
def received : Message → Json
  | .accepted key => .object [("key", .string key), ("status", .string "accepted")]
  | .error key reason => .object [("error", .string reason), ("key", .string key), ("status", .string "error")]
  | .rejected key reason => .object [("error", .string reason), ("key", keyValue key), ("status", .string "rejected")]
  | .result key index data => .object [("data", data), ("index", .nat index), ("key", .string key)]
  | .unitError key index reason =>
    .object [("data", .object [("error", .string reason)]), ("index", .nat index), ("key", .string key)]

/-- The message has a text that can be read back: no binary numbers, an index of 64 bits, fewer than 128 levels of
brackets, and the names of every object in its data in their order. -/
structure Sendable (m : Message) : Prop where
  plain : m.json.Plain Json.maxLevels
  tidy : ∀ key index data, m = .result key index data → data.Tidy

theorem plain_keyValue (key? : Option String) {levels : Nat} : (keyValue key?).Plain levels := by
  cases key? with
  | none => exact .null
  | some key => exact .string key

theorem plain_nat {n levels : Nat} (h : n ≤ Json.maxWhole) : (Json.nat n).Plain levels :=
  .whole (by omega) (by exact_mod_cast h)

/-- Every message about a whole job is sendable. -/
theorem sendable_of_status (h : m.status?.isSome) : m.Sendable := by
  refine ⟨?_, fun key index data hm => ?_⟩
  · have hmembers : ∃ key? status rest, (∀ e ∈ rest, e.2.Plain 126) ∧
        m.json = .object (("key", keyValue key?) :: ("status", .string status) :: rest) := by
      cases m with
      | accepted key => exact ⟨some key, _, [], List.forall_mem_nil _, rfl⟩
      | error key reason => exact ⟨some key, _, _, List.forall_mem_singleton.mpr (.string reason), rfl⟩
      | rejected key? reason => exact ⟨key?, _, _, List.forall_mem_singleton.mpr (.string reason), rfl⟩
      | result key index data => cases h
      | unitError key index reason => cases h
    obtain ⟨key?, status, rest, hrest, hjson⟩ := hmembers
    rw [hjson]
    exact .object (List.forall_mem_cons.mpr ⟨plain_keyValue key?, List.forall_mem_cons.mpr ⟨.string status, hrest⟩⟩)
  · rw [hm] at h
    cases h

theorem plain_unit (key : String) {index : Nat} {data : Json} (h : index ≤ Json.maxWhole) (hdata : data.Plain 126) :
    (Json.object [("key", .string key), ("index", .nat index), ("data", data)]).Plain Json.maxLevels :=
  .object (List.forall_mem_cons.mpr ⟨.string key, List.forall_mem_cons.mpr ⟨plain_nat h,
    List.forall_mem_singleton.mpr hdata⟩⟩)

theorem sendable_unitError (key reason : String) {index : Nat} (h : index ≤ Json.maxWhole) :
    (Message.unitError key index reason).Sendable :=
  ⟨plain_unit key h (.object (List.forall_mem_singleton.mpr (.string reason))), fun _ _ _ hm => nomatch hm⟩

theorem sendable_result (key : String) {index : Nat} {data : Json} (h : index ≤ Json.maxWhole)
    (hdata : data.Plain 126) (htidy : data.Tidy) : (Message.result key index data).Sendable := by
  refine ⟨plain_unit key h hdata, fun key' index' data' hm => ?_⟩
  cases hm
  exact htidy

theorem sorted_json (h : m.Sendable) : m.json.sorted = m.received := by
  cases m with
  | accepted key => rfl
  | error key reason => rfl
  | rejected key? reason => cases key? <;> rfl
  | result key index data =>
    have hdata := Json.sorted_of_tidy (h.tidy key index data rfl)
    show Json.object [("data", data.sorted), ("index", .nat index), ("key", .string key)] = _
    rw [hdata]
    rfl
  | unitError key index reason => rfl

/-- The text of a message reads as its members. -/
theorem parse_text (h : m.Sendable) : Json.parse (Bytes.ofText m.text) = .ok m.received := by
  rw [text, Json.parse_text h.plain, sorted_json h]

theorem keyOf?_received (m : Message) : m.received.keyOf? = m.key? := by
  cases m with
  | rejected key? reason => cases key? <;> rfl
  | _ => rfl

theorem indexOf?_received (m : Message) : m.received.indexOf? = m.index? := by
  cases m <;> rfl

theorem statusOf?_received (m : Message) : m.received.statusOf? = m.status? := by
  cases m <;> rfl

/-- The two messages are a failed unit and a result that is an error under the same words. -/
def Disguises (m m' : Message) : Prop :=
  ∃ key index reason, m = .unitError key index reason ∧ m' = .result key index (.object [("error", .string reason)])

theorem text_of_disguises (h : m.Disguises m') : m.text = m'.text := by
  obtain ⟨key, index, reason, rfl, rfl⟩ := h
  rfl

/-- A client cannot tell two messages apart only if they are the same or a failed unit and its disguise. -/
theorem eq_or_disguises (h : m.received = m'.received) : m = m' ∨ m.Disguises m' ∨ m'.Disguises m := by
  have hkey : m.key? = m'.key? := by rw [← keyOf?_received, h, keyOf?_received]
  have hindex : m.index? = m'.index? := by rw [← indexOf?_received, h, indexOf?_received]
  have hstatus : m.status? = m'.status? := by rw [← statusOf?_received, h, statusOf?_received]
  cases m with
  | accepted key =>
    cases m' with
    | accepted key' =>
      cases hkey
      exact .inl rfl
    | _ => cases hstatus
  | error key reason =>
    cases m' with
    | error key' reason' =>
      cases hkey
      cases h
      exact .inl rfl
    | _ => cases hstatus
  | rejected key? reason =>
    cases m' with
    | rejected key?' reason' =>
      obtain rfl : key? = key?' := hkey
      cases h
      exact .inl rfl
    | _ => cases hstatus
  | result key index data =>
    cases m' with
    | result key' index' data' =>
      cases hkey
      cases hindex
      cases h
      exact .inl rfl
    | unitError key' index' reason' =>
      cases hkey
      cases hindex
      cases h
      exact .inr (.inr ⟨key, index, reason', rfl, rfl⟩)
    | _ => cases hstatus
  | unitError key index reason =>
    cases m' with
    | result key' index' data' =>
      cases hkey
      cases hindex
      cases h
      exact .inr (.inl ⟨key, index, reason, rfl, rfl⟩)
    | unitError key' index' reason' =>
      cases hkey
      cases hindex
      cases h
      exact .inl rfl
    | _ => cases hstatus

/-- Every message reads back from its text, and two messages share a text only as a failed unit and its disguise. -/
theorem wire_text_read_back :
    (∀ m : Message, m.Sendable → Json.parse (Bytes.ofText m.text) = .ok m.received ∧
      m.received.keyOf? = m.key? ∧ m.received.indexOf? = m.index? ∧ m.received.statusOf? = m.status?) ∧
    ∀ m m' : Message, m.Sendable → m'.Sendable → (m.text = m'.text ↔ m = m' ∨ m.Disguises m' ∨ m'.Disguises m) := by
  constructor
  · intro m h
    exact ⟨parse_text h, keyOf?_received m, indexOf?_received m, statusOf?_received m⟩
  · intro m m' h h'
    constructor
    · intro htext
      have hread := parse_text h
      rw [htext, parse_text h'] at hread
      exact eq_or_disguises (Except.ok.inj hread).symm
    · rintro (rfl | hdis | hdis)
      · rfl
      · exact text_of_disguises hdis
      · exact (text_of_disguises hdis).symm

theorem wire_text_read_back_quoted :
    Json.parse (Bytes.ofText (Message.result "\"é\\\n" 5 (.object [("\x00", .array [.nat 7, .null])])).text) =
      .ok (.object [("data", .object [("\x00", .array [.nat 7, .null])]), ("index", .nat 5),
        ("key", .string "\"é\\\n")]) ∧
    (Message.unitError "k" 0 "bad").text = (Message.result "k" 0 (.object [("error", .string "bad")])).text ∧
    Json.parse (Bytes.ofText (Message.rejected none "bad").text) =
      .ok (.object [("error", .string "bad"), ("key", .null), ("status", .string "rejected")]) := by
  have hitems : ∀ v ∈ [Json.nat 7, .null], v.Plain 124 ∧ v.Tidy :=
    List.forall_mem_cons.mpr ⟨⟨plain_nat (by decide), .number _⟩, List.forall_mem_singleton.mpr ⟨.null, .null⟩⟩
  have hresult : (Message.result "\"é\\\n" 5 (.object [("\x00", .array [.nat 7, .null])])).Sendable :=
    sendable_result _ (by decide)
      (.object (List.forall_mem_singleton.mpr (.array fun v hv => (hitems v hv).1)))
      (.object (List.pairwise_singleton _ _) (List.forall_mem_singleton.mpr (.array fun v hv => (hitems v hv).2)))
  have hdisguise : (Message.result "k" 0 (.object [("error", .string "bad")])).Sendable :=
    sendable_result "k" (by decide) (.object (List.forall_mem_singleton.mpr (.string "bad")))
      (.object (List.pairwise_singleton _ _) (List.forall_mem_singleton.mpr (.string "bad")))
  refine ⟨(wire_text_read_back.1 _ hresult).1, ?_, (wire_text_read_back.1 _ (sendable_of_status rfl)).1⟩
  exact (wire_text_read_back.2 _ _ (sendable_unitError "k" "bad" (by decide)) hdisguise).mpr
    (.inr (.inl ⟨"k", 0, "bad", rfl, rfl⟩))

end Message
end FrameStream
