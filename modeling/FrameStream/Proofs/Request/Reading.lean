import Mathlib.Data.List.Nodup
import FrameStream.Proofs.Json.Records
import FrameStream.Request

/-!
# Requests as they are read

A text is read as a request exactly if it is the text of an object that gives no field twice, or of a list of at most
four items, with texts or nulls where texts are wanted (`Request.Fits`). Other members may be anything, and in any
order. The request then holds what the value gives (`Request.told`); every other text is a malformed request.
-/

namespace FrameStream

/-- A value that may stand where a text is wanted. -/
inductive Json.IsText : Json → Prop
  | null : IsText .null
  | string (s : String) : IsText (.string s)

/-- The text that is given, if any is; null gives none. -/
def Json.textOf : Option Json → Option String
  | some (.string s) => some s
  | _ => none

namespace Request

def fieldNames : List String := ["key", "resource", "count", "model"]

/-- What a value gives for a field: under its name in an object, at its place in a list. -/
def given? (place : Nat) (name : String) : Json → Option Json
  | .array vs => vs[place]?
  | v => v.get? name

/-- A value that can be read as a request. -/
inductive Fits : Json → Prop
  | object {ms : List (String × Json)} (once : ∀ name ∈ fieldNames, (ms.map Prod.fst).count name ≤ 1)
      (texts : ∀ e ∈ ms, e.1 = "key" ∨ e.1 = "resource" ∨ e.1 = "model" → e.2.IsText) : Fits (.object ms)
  | list {vs : List Json} (short : vs.length ≤ 4)
      (texts : ∀ i v, vs[i]? = some v → i = 0 ∨ i = 1 ∨ i = 3 → v.IsText) : Fits (.array vs)

/-- The request that a value gives. -/
def told (v : Json) : Request where
  key := Json.textOf (given? 0 "key" v)
  resource := Json.textOf (given? 1 "resource" v)
  count := (given? 2 "count" v).bind Json.asValue
  model := Json.textOf (given? 3 "model" v)

/-- What a value changes in a request when it is given for a field. -/
def change (name : String) (v : Json) : Option (Request → Request) :=
  if name = "key" then v.asText?.map fun t r => { r with key := t }
  else if name = "resource" then v.asText?.map fun t r => { r with resource := t }
  else if name = "count" then some fun r => { r with count := v.asValue }
  else if name = "model" then v.asText?.map fun t r => { r with model := t }
  else none

section Change

variable {name : String} {v : Json} {g : Request → Request}

theorem change_cases (h : change name v = some g) :
    (name = "key" ∧ ∃ t, v.asText? = some t ∧ g = fun r => { r with key := t }) ∨
    (name = "resource" ∧ ∃ t, v.asText? = some t ∧ g = fun r => { r with resource := t }) ∨
    (name = "count" ∧ g = fun r => { r with count := v.asValue }) ∨
    (name = "model" ∧ ∃ t, v.asText? = some t ∧ g = fun r => { r with model := t }) := by
  unfold change at h
  split at h
  · obtain ⟨t, ht, rfl⟩ := Option.map_eq_some_iff.mp h
    exact .inl ⟨‹_›, t, ht, rfl⟩
  split at h
  · obtain ⟨t, ht, rfl⟩ := Option.map_eq_some_iff.mp h
    exact .inr (.inl ⟨‹_›, t, ht, rfl⟩)
  split at h
  · cases h
    exact .inr (.inr (.inl ⟨‹_›, rfl⟩))
  split at h
  · obtain ⟨t, ht, rfl⟩ := Option.map_eq_some_iff.mp h
    exact .inr (.inr (.inr ⟨‹_›, t, ht, rfl⟩))
  · cases h

theorem isSome_asText?_iff : v.asText?.isSome ↔ v.IsText := by
  constructor
  · intro h
    cases v with
    | null => exact .null
    | string s => exact .string s
    | _ => cases h
  · rintro (_ | s) <;> rfl

theorem textOf_of_asText? {t : Option String} (h : v.asText? = some t) : t = Json.textOf (some v) := by
  cases v with
  | null => cases h; rfl
  | string s => cases h; rfl
  | _ => cases h

theorem key_change (h : change name v = some g) (r : Request) :
    (g r).key = if name = "key" then Json.textOf (some v) else r.key := by
  rcases change_cases h with ⟨rfl, t, ht, rfl⟩ | ⟨rfl, -, -, rfl⟩ | ⟨rfl, rfl⟩ | ⟨rfl, -, -, rfl⟩
  · exact textOf_of_asText? ht
  all_goals rfl

theorem resource_change (h : change name v = some g) (r : Request) :
    (g r).resource = if name = "resource" then Json.textOf (some v) else r.resource := by
  rcases change_cases h with ⟨rfl, -, -, rfl⟩ | ⟨rfl, t, ht, rfl⟩ | ⟨rfl, rfl⟩ | ⟨rfl, -, -, rfl⟩
  on_goal 2 => exact textOf_of_asText? ht
  all_goals rfl

theorem count_change (h : change name v = some g) (r : Request) :
    (g r).count = if name = "count" then v.asValue else r.count := by
  rcases change_cases h with ⟨rfl, -, -, rfl⟩ | ⟨rfl, -, -, rfl⟩ | ⟨rfl, rfl⟩ | ⟨rfl, -, -, rfl⟩ <;> rfl

theorem model_change (h : change name v = some g) (r : Request) :
    (g r).model = if name = "model" then Json.textOf (some v) else r.model := by
  rcases change_cases h with ⟨rfl, -, -, rfl⟩ | ⟨rfl, -, -, rfl⟩ | ⟨rfl, rfl⟩ | ⟨rfl, t, ht, rfl⟩
  on_goal 4 => exact textOf_of_asText? ht
  all_goals rfl

/-- A field takes any value, but for the fields that take texts. -/
theorem isSome_change_iff (hname : name ∈ fieldNames) :
    (change name v).isSome ↔ (name = "key" ∨ name = "resource" ∨ name = "model" → v.IsText) := by
  rw [← isSome_asText?_iff]
  simp only [fieldNames, List.mem_cons, List.not_mem_nil, or_false] at hname
  rcases hname with rfl | rfl | rfl | rfl <;> simp [change]

end Change

theorem names_record : record.names = fieldNames := rfl

/-- Every field is read alike wherever a text stands: each takes null for nothing. -/
theorem local_record (levels : Nat) : record.Local levels := by
  have htext : ∀ t, Json.Written t → Json.Settled (Json.optional Json.wantString) t := fun t h =>
    h.settled_optional fun _ => Json.Written.settled_wantString
  have hvalue : ∀ t, Json.Written t → Json.Settled (Json.optional (Json.value levels)) t := fun t h =>
    h.settled_optional fun _ h => h.settled_value levels
  constructor
  · intro f hf
    simp only [record, List.mem_cons, List.not_mem_nil, or_false] at hf
    rcases hf with rfl | rfl | rfl | rfl <;> exact (Json.blind_optional _).map _
  · intro f hf t h
    simp only [record, List.mem_cons, List.not_mem_nil, or_false] at hf
    rcases hf with rfl | rfl | rfl | rfl
    · exact (htext t h).map _
    · exact (htext t h).map _
    · exact (hvalue t h).map _
    · exact (htext t h).map _

theorem reads_record (levels : Nat) : record.Reads change levels := by
  refine ⟨local_record levels, fun f hf v h => ?_⟩
  have htext := (Json.takes_optional_text h).eq_alone
  have hvalue := (Json.takes_optional_value h).eq_alone
  simp only [record, List.mem_cons, List.not_mem_nil, or_false] at hf
  rcases hf with rfl | rfl | rfl | rfl
  · rw [Json.alone_map, htext]; rfl
  · rw [Json.alone_map, htext]; rfl
  · rw [Json.alone_map, hvalue]; rfl
  · rw [Json.alone_map, htext]; rfl

/-! ## Objects -/

section Objects

variable {ms : List (String × Json)} {r : Request}

theorem fits_object_iff : Fits (.object ms) ↔ (record.ofValue? change (.object ms)).isSome := by
  rw [Json.Record.ofValue?, Option.isSome_map, Json.Record.isSome_foldlM_put?_iff, names_record]
  constructor
  · rintro ⟨once, texts⟩
    exact ⟨fun name hname => once name hname, fun e he hname => (isSome_change_iff hname).mpr (texts e he)⟩
  · rintro ⟨once, kinds⟩
    refine .object (fun name hname => once name hname) fun e he hname => ?_
    have hfield : e.1 ∈ fieldNames := by
      rcases hname with h | h | h <;> rw [h] <;> decide
    exact (isSome_change_iff hfield).mp (kinds e he hfield) hname

theorem told_of_object (h : record.ofValue? change (.object ms) = some r) : r = told (.object ms) := by
  obtain ⟨s, hs, rfl⟩ := Option.map_eq_some_iff.mp h
  have hkey := Json.Record.field_foldlM_put? hs "key" (by decide) fun _ _ _ r hg => key_change hg r
  have hresource := Json.Record.field_foldlM_put? hs "resource" (by decide) fun _ _ _ r hg => resource_change hg r
  have hcount := Json.Record.field_foldlM_put? hs "count" (by decide) fun _ _ _ r hg => count_change hg r
  have hmodel := Json.Record.field_foldlM_put? hs "model" (by decide) fun _ _ _ r hg => model_change hg r
  have htext : ∀ o : Option Json, (o.elim none fun v => Json.textOf (some v)) = Json.textOf o := fun o => by
    cases o <;> rfl
  have hvalue : ∀ o : Option Json, (o.elim none fun v => v.asValue) = o.bind Json.asValue := fun o => by
    cases o <;> rfl
  have hfields : s.1 = ⟨s.1.key, s.1.resource, s.1.count, s.1.model⟩ := rfl
  rw [hfields, hkey.trans (htext _), hresource.trans (htext _), hcount.trans (hvalue _), hmodel.trans (htext _)]
  rfl

end Objects

/-! ## Lists -/

section Lists

variable {vs : List Json}

theorem nodup_fieldNames : fieldNames.Nodup := by decide

theorem count_zip_le (name : String) : ((fieldNames.zip vs).map Prod.fst).count name ≤ 1 :=
  List.nodup_iff_count_le_one.mp (nodup_fieldNames.sublist (NameTable.names_zip_sublist fieldNames vs)) name

theorem told_zip : told (.object (fieldNames.zip vs)) = told (.array vs) := by
  have hplace : ∀ i name, fieldNames[i]? = some name → NameTable.get? name (fieldNames.zip vs) = vs[i]? :=
    fun i name hi => NameTable.get?_zip nodup_fieldNames vs hi
  simp only [told, given?, Json.get?, hplace 0 "key" rfl, hplace 1 "resource" rfl, hplace 2 "count" rfl,
    hplace 3 "model" rfl]

/-- A list fits if it is not too long and the object fits that names its items. -/
theorem fits_list_iff : Fits (.array vs) ↔ vs.length ≤ 4 ∧ Fits (.object (fieldNames.zip vs)) := by
  have htexts : (∀ i v, vs[i]? = some v → i = 0 ∨ i = 1 ∨ i = 3 → v.IsText) ↔
      ∀ e ∈ fieldNames.zip vs, e.1 = "key" ∨ e.1 = "resource" ∨ e.1 = "model" → e.2.IsText := by
    constructor
    · rintro h ⟨name, v⟩ he hname
      obtain ⟨i, hi⟩ := List.mem_iff_getElem?.mp he
      obtain ⟨hfield, hv⟩ := List.getElem?_zip_eq_some.mp hi
      refine h i v hv ?_
      rcases i with _ | _ | _ | _ | i
      on_goal 3 => cases hfield; exact absurd hname (by simp)
      · exact .inl rfl
      · exact .inr (.inl rfl)
      · exact .inr (.inr rfl)
      · cases hfield
    · intro h i v hv hi
      have hmem : ∀ name, fieldNames[i]? = some name → (name, v) ∈ fieldNames.zip vs := fun name hname =>
        List.mem_of_getElem? (List.getElem?_zip_eq_some.mpr ⟨hname, hv⟩)
      rcases hi with rfl | rfl | rfl
      · exact h _ (hmem "key" rfl) (.inl rfl)
      · exact h _ (hmem "resource" rfl) (.inr (.inl rfl))
      · exact h _ (hmem "model" rfl) (.inr (.inr rfl))
  constructor
  · intro h
    cases h with
    | list short texts => exact ⟨short, .object (fun name _ => count_zip_le name) (htexts.mp texts)⟩
  · rintro ⟨short, h⟩
    cases h with
    | object _ texts => exact .list short (htexts.mpr texts)

end Lists

/-! ## Texts -/

section Texts

variable {v : Json}

/-- A value stands for a request exactly if it fits. -/
theorem fits_iff : Fits v ↔ (record.ofValue? change v).isSome := by
  cases v with
  | object ms => exact fits_object_iff
  | array vs =>
    rw [fits_list_iff]
    by_cases hshort : vs.length ≤ 4
    · rw [Json.Record.ofValue?_array (k := record) rfl nodup_fieldNames hshort, names_record, ← fits_object_iff]
      exact and_iff_right hshort
    · rw [Json.Record.ofValue?, Json.Record.place?_eq_none (Nat.lt_of_not_le hshort)]
      exact iff_of_false (fun h => hshort h.1) Bool.false_ne_true
  | _ =>
    refine iff_of_false (fun h => ?_) Bool.false_ne_true
    cases h

/-- The request a value stands for holds what the value gives. -/
theorem eq_told {r : Request} (h : record.ofValue? change v = some r) : r = told v := by
  cases v with
  | object ms => exact told_of_object h
  | array vs =>
    have hshort : vs.length ≤ 4 := (fits_list_iff.mp (fits_iff.mpr (Option.isSome_of_eq_some h))).1
    rw [Json.Record.ofValue?_array (k := record) rfl nodup_fieldNames hshort] at h
    exact (told_of_object h).trans told_zip
  | _ => cases h

/-- The text of a value is read as a request exactly if the value fits; the request holds what the value gives, and
every other text is refused as malformed. -/
theorem text_read_iff_fits (h : v.Plain Json.maxLevels) :
    ((∃ r, parse (Bytes.ofText v.text) = .ok r) ↔ Fits v) ∧
    (∀ r, parse (Bytes.ofText v.text) = .ok r → r = told v) ∧
    (¬Fits v → ∃ refusal report, parse (Bytes.ofText v.text) = .error refusal ∧
      refusal.error = .invalid ("Malformed job request: " ++ report)) := by
  obtain ⟨hsome, hnone⟩ := Json.Record.parse_text (reads_record 126) rfl h
  cases hvalue : record.ofValue? change v with
  | some r =>
    have hfits : Fits v := fits_iff.mpr (Option.isSome_of_eq_some hvalue)
    have hread : parse (Bytes.ofText v.text) = .ok r := by
      rw [parse, hsome r hvalue]
    refine ⟨iff_of_true ⟨r, hread⟩ hfits, fun r' hr' => ?_, fun hnot => absurd hfits hnot⟩
    rw [hread] at hr'
    cases hr'
    exact eq_told hvalue
  | none =>
    obtain ⟨e, he⟩ := hnone hvalue
    have hread : parse (Bytes.ofText v.text) = .error (.malformed (e.message (Bytes.ofText v.text))) := by
      rw [parse, he]
    have hfits : ¬Fits v := fun h => by
      simpa [hvalue] using fits_iff.mp h
    refine ⟨iff_of_false (fun ⟨r, hr⟩ => ?_) hfits, fun r hr => ?_, fun _ => ⟨_, _, hread, rfl⟩⟩
    · rw [hread] at hr
      cases hr
    · rw [hread] at hr
      cases hr

/-- Members in no order, between others that are repeated and nested. -/
def scattered : Json := .object [("note", .array [.object [("key", .number (.whole 1))], .null]), ("model", .null),
  ("count", .object [("b", .bool true), ("a", .string "\n")]), ("note", .string "\\"), ("key", .string "k\"")]

theorem plain_scattered : scattered.Plain Json.maxLevels := by
  refine .object fun e he => ?_
  simp only [List.mem_cons, List.not_mem_nil, or_false] at he
  rcases he with rfl | rfl | rfl | rfl | rfl
  · refine .array fun v hv => ?_
    simp only [List.mem_cons, List.not_mem_nil, or_false] at hv
    rcases hv with rfl | rfl
    · exact .object fun e he => by cases List.mem_singleton.mp he; exact .whole (by decide) (by decide)
    · exact .null
  · exact .null
  · refine .object fun e he => ?_
    simp only [List.mem_cons, List.not_mem_nil, or_false] at he
    rcases he with rfl | rfl
    · exact .bool true
    · exact .string _
  · exact .string _
  · exact .string _

theorem fits_scattered : Fits scattered := by
  refine .object (by decide) fun e he hname => ?_
  simp only [List.mem_cons, List.not_mem_nil, or_false] at he
  rcases he with rfl | rfl | rfl | rfl | rfl
  · simp at hname
  · exact .null
  · simp at hname
  · simp at hname
  · exact .string _

theorem scattered_members_read : parse (Bytes.ofText scattered.text) = .ok
    { key := some "k\"", resource := none, model := none,
      count := some (.object [("a", .string "\n"), ("b", .bool true)]) } := by
  obtain ⟨hread, htold, -⟩ := text_read_iff_fits plain_scattered
  obtain ⟨r, hr⟩ := hread.mpr fits_scattered
  rw [hr, htold r hr]
  rfl

end Texts

end Request
end FrameStream
