import FrameStream.Proofs.Json.Members
import FrameStream.Proofs.Json.Rereading

/-!
# Records read from the text of a value

What a record makes of a text depends on the value alone that the text is of. `Record.ofValue?` says what: members put
one by one into the record, or a list placed field by field. Reading the text agrees with it
(`Record.takes_ofValue?`); it finds a fault exactly where `Record.ofValue?` gives nothing. A list counts as the object
that names its items by the fields in their order.
-/

namespace FrameStream.Json

/-- What a value says where a text or null is wanted; nothing for a value of another kind. -/
def asText? : Json → Option (Option String)
  | .null => some none
  | .string s => some (some s)
  | _ => none

/-- What a value says where any value may stand, and null for none. -/
def asValue : Json → Option Json
  | .null => none
  | v => some v.sorted

variable {levels : Nat} {v : Json}

/-! ## Fields -/

/-- The first byte of a text tells texts, nulls and containers from all else. -/
theorem text_head (h : Plain levels v) : ∃ b t, Bytes.ofText v.text = b :: t ∧ Byte.isSpace b = false ∧
    (v ≠ .null → b ≠ Byte.letterN) ∧ ((∀ s, v ≠ .string s) → b ≠ Byte.quoteMark) ∧
    ((∀ vs, v ≠ .array vs) → b ≠ Byte.openList) ∧ ((∀ ms, v ≠ .object ms) → b ≠ Byte.openObject) := by
  cases h with
  | null =>
    exact ⟨_, _, ofText_null, by decide, fun h => absurd rfl h, fun _ => by decide, fun _ => by decide,
      fun _ => by decide⟩
  | bool b =>
    cases b <;>
      exact ⟨_, _, rfl, by decide, fun _ => by decide, fun _ => by decide, fun _ => by decide, fun _ => by decide⟩
  | string s =>
    exact ⟨_, _, ofText_string s, by decide, fun _ => by decide, fun h => absurd rfl (h s), fun _ => by decide,
      fun _ => by decide⟩
  | @array _ vs _ =>
    exact ⟨_, _, ofText_array vs, by decide, fun _ => by decide, fun _ => by decide, fun h => absurd rfl (h vs),
      fun _ => by decide⟩
  | @object _ ms _ =>
    exact ⟨_, _, ofText_object ms, by decide, fun _ => by decide, fun _ => by decide, fun _ => by decide,
      fun h => absurd rfl (h ms)⟩
  | @whole _ i _ _ =>
    obtain ⟨b, t, hb, hfirst⟩ := (Numeral.ofWhole i).bytes_eq_cons
    exact ⟨b, t, (ofText_number i).trans hb, isSpace_of_number hfirst, fun _ => ne_of_number hfirst (by decide),
      fun _ => ne_of_number hfirst (by decide), fun _ => ne_of_number hfirst (by decide),
      fun _ => ne_of_number hfirst (by decide)⟩

/-- A text or null is read where it is wanted, and nothing else is. -/
theorem takes_optional_text (h : Plain levels v) :
    Takes (optional wantString) (Bytes.ofText v.text) v.asText? := by
  by_cases hv : v = .null
  · subst hv
    exact ofText_null ▸ takes_optional_null wantString
  by_cases hs : ∃ s, v = .string s
  · obtain ⟨s, rfl⟩ := hs
    have hread := (takes_wantString (quoted s)).optional (by decide) (by decide)
    rw [spelled_quoted] at hread
    exact ofText_string s ▸ hread
  · have hnone : v.asText? = none := by
      cases v with
      | null => exact absurd rfl hv
      | string s => exact absurd ⟨s, rfl⟩ hs
      | _ => rfl
    obtain ⟨b, t, hb, hspace, hnull, hquote, -⟩ := text_head h
    rw [hnone, hb]
    exact (takes_wantString_other hspace (hquote fun s hv => hs ⟨s, hv⟩)).optional hspace (hnull hv)

/-- Any value is read where any may stand. -/
theorem takes_optional_value (h : Plain levels v) :
    Takes (optional (value levels)) (Bytes.ofText v.text) (some v.asValue) := by
  by_cases hv : v = .null
  · subst hv
    exact ofText_null ▸ takes_optional_null (value levels)
  · have hvalue : v.asValue = some v.sorted := by
      cases v with
      | null => exact absurd rfl hv
      | _ => rfl
    have hread := takes_text h
    obtain ⟨b, t, hb, hspace, hnull, -⟩ := text_head h
    rw [hb] at hread ⊢
    rw [hvalue]
    exact hread.optional hspace (hnull hv)

/-! ## Records -/

namespace Record

variable {σ : Type} (k : Record σ) (change : String → Json → Option (σ → σ))

def names : List String := k.fields.map (·.name)

/-- The record and the names seen so far after one more member; nothing if its field was given before or its value is of
a wrong kind. -/
def put? (s : σ × List String) (e : String × Json) : Option (σ × List String) :=
  if e.1 ∈ k.names then
    if e.1 ∈ s.2 then none else (change e.1 e.2).map fun g => (g s.1, e.1 :: s.2)
  else some s

/-- The record after the items of a list are placed into fields in their order; nothing if there are too many items,
or too few for a list that has to be whole, or a value is of a wrong kind. -/
def place? : List (Field σ) → List Json → σ → Option σ
  | [], [], s => some s
  | [], _ :: _, _ => none
  | _ :: _, [], s => if k.whole then none else some s
  | f :: fs, v :: vs, s => (change f.name v).bind fun g => place? fs vs (g s)

/-- The record that a value stands for, if it stands for one. -/
def ofValue? : Json → Option σ
  | .array vs => k.place? change k.fields vs k.start
  | .object ms => (ms.foldlM (k.put? change) (k.start, [])).map Prod.fst
  | _ => none

/-- Every field is read alike wherever a text stands, and what is read for it agrees with what its value changes. -/
structure Reads (levels : Nat) : Prop where
  isLocal : k.Local levels
  alone_eq : ∀ f ∈ k.fields, ∀ v, Plain levels v → alone (f.read levels) (Bytes.ofText v.text) = change f.name v

variable {k change}

theorem enter?_entryOf (hk : k.Reads change levels) {e : String × Json} (h : Plain levels e.2) (s : σ × List String) :
    k.enter? levels s (entryOf e) = k.put? change s e := by
  rw [enter?, entryOf, spelled_quoted, Option.bind_some, putText?, put?]
  cases hf : k.fields.find? (·.name = e.1) with
  | none =>
    have hnames : e.1 ∉ k.names := by
      simpa [names, List.find?_eq_none] using hf
    rw [if_neg hnames]
  | some f =>
    have hmem : f ∈ k.fields := List.mem_of_find?_eq_some hf
    have hname : f.name = e.1 := by simpa using List.find?_some hf
    have hnames : e.1 ∈ k.names := hname ▸ List.mem_map_of_mem hmem
    simp only [if_pos hnames, hk.alone_eq f hmem e.2 h, hname]

theorem foldlM_entryOf (hk : k.Reads change levels) {ms : List (String × Json)} (h : ∀ e ∈ ms, Plain levels e.2)
    (s : σ × List String) : (ms.map entryOf).foldlM (k.enter? levels) s = ms.foldlM (k.put? change) s := by
  induction ms generalizing s with
  | nil => rfl
  | cons e ms ih =>
    obtain ⟨he, hms⟩ := List.forall_mem_cons.mp h
    rw [List.map_cons, List.foldlM_cons, List.foldlM_cons, enter?_entryOf hk he]
    exact Option.bind_congr fun s' _ => ih hms s'

theorem placeTexts?_itemOf (hk : k.Reads change levels) {fs : List (Field σ)} (hfs : ∀ f ∈ fs, f ∈ k.fields)
    {vs : List Json} (hvs : ∀ v ∈ vs, Plain levels v) (s : σ) :
    k.placeTexts? levels fs (vs.map itemOf) s = k.place? change fs vs s := by
  induction fs generalizing vs s with
  | nil => cases vs <;> rfl
  | cons f fs ih =>
    cases vs with
    | nil => rfl
    | cons v vs =>
      obtain ⟨hf, hfs⟩ := List.forall_mem_cons.mp hfs
      obtain ⟨hv, hvs⟩ := List.forall_mem_cons.mp hvs
      rw [List.map_cons, placeTexts?, place?, ← hk.alone_eq f hf v hv]
      exact Option.bind_congr fun g _ => ih hfs hvs (g s)

/-- What reading makes of a text is what its value stands for. -/
theorem takes_ofValue? (hk : k.Reads change levels) (h : Plain (levels + 1) v) :
    Takes (k.read (levels + 1)) (Bytes.ofText v.text) (k.ofValue? change v) := by
  by_cases harray : ∃ vs, v = .array vs
  · obtain ⟨vs, rfl⟩ := harray
    cases h with
    | array hvs =>
      have hwritten : ∀ i ∈ vs.map itemOf, Written i.value :=
        List.forall_mem_map.mpr fun v hv => written_text (hvs v hv)
      rw [ofText_array, ofValue?, ← placeTexts?_itemOf hk (fun _ hf => hf) hvs]
      exact takes_list hk.isLocal hwritten Blanks.none
  by_cases hobject : ∃ ms, v = .object ms
  · obtain ⟨ms, rfl⟩ := hobject
    cases h with
    | object hms =>
      have hwritten : ∀ e ∈ ms.map entryOf, Written e.value :=
        List.forall_mem_map.mpr fun e he => written_text (hms e he)
      rw [ofText_object, ofValue?, ← foldlM_entryOf hk hms]
      exact takes_object hk.isLocal hwritten Blanks.none
  · have hnone : k.ofValue? change v = none := by
      cases v with
      | array vs => exact absurd ⟨vs, rfl⟩ harray
      | object ms => exact absurd ⟨ms, rfl⟩ hobject
      | _ => rfl
    obtain ⟨b, t, hb, hspace, -, -, hlist, hmembers⟩ := text_head h
    rw [hnone, hb]
    exact takes_read_other k hspace (hlist fun vs hv => harray ⟨vs, hv⟩) (hmembers fun ms hv => hobject ⟨ms, hv⟩)

/-- The text of a value, read alone as a record. -/
theorem parse_text (hk : k.Reads change levels) (hlevels : maxLevels = levels + 1) (h : Plain maxLevels v) :
    (∀ s, k.ofValue? change v = some s → k.parse (Bytes.ofText v.text) = .ok s) ∧
    (k.ofValue? change v = none → ∃ e, k.parse (Bytes.ofText v.text) = .error e) := by
  have hread := takes_ofValue? hk (hlevels ▸ h) [] ends_nil
  rw [List.append_nil, ← hlevels] at hread
  constructor
  · intro s hs
    rw [hs] at hread
    exact readAll_of_ok hread.eq
  · intro hs
    rw [hs] at hread
    cases hread with
    | @fails e he => exact ⟨e, readAll_of_error he⟩

/-! ## What a value stands for -/

theorem put?_of_not_mem {s : σ × List String} {e : String × Json} (h : e.1 ∉ k.names) : k.put? change s e = some s :=
  if_neg h

theorem put?_of_seen {s : σ × List String} {e : String × Json} (h : e.1 ∈ k.names) (hseen : e.1 ∈ s.2) :
    k.put? change s e = none := by
  rw [put?, if_pos h, if_pos hseen]

theorem put?_of_new {s : σ × List String} {e : String × Json} (h : e.1 ∈ k.names) (hnew : e.1 ∉ s.2) :
    k.put? change s e = (change e.1 e.2).map fun g => (g s.1, e.1 :: s.2) := by
  rw [put?, if_pos h, if_neg hnew]

/-- Members make a record exactly if no field is given twice, or again, and every value of a field is of its kind. -/
theorem isSome_foldlM_put?_iff (ms : List (String × Json)) (s : σ × List String) :
    (ms.foldlM (k.put? change) s).isSome ↔
      (∀ name ∈ k.names, (ms.map Prod.fst).count name + (if name ∈ s.2 then 1 else 0) ≤ 1) ∧
      ∀ e ∈ ms, e.1 ∈ k.names → (change e.1 e.2).isSome := by
  induction ms generalizing s with
  | nil =>
    simp only [List.foldlM_nil, List.map_nil, List.count_nil, List.not_mem_nil, false_implies, implies_true, and_true]
    refine iff_of_true rfl fun name _ => ?_
    split <;> omega
  | cons e ms ih =>
    rw [List.foldlM_cons, List.map_cons, List.forall_mem_cons]
    by_cases he : e.1 ∈ k.names
    · by_cases hseen : e.1 ∈ s.2
      · rw [put?_of_seen he hseen]
        refine iff_of_false (by simp) fun ⟨hcount, _⟩ => ?_
        have hcount := hcount e.1 he
        rw [List.count_cons_self, if_pos hseen] at hcount
        omega
      · rw [put?_of_new he hseen]
        cases hg : change e.1 e.2 with
        | none => exact iff_of_false (by simp) fun ⟨_, hkinds, _⟩ => by simpa [hg] using hkinds he
        | some g =>
          simp only [Option.map_some, Option.bind_eq_bind, Option.bind_some, Option.isSome_some, implies_true, true_and,
            ih]
          refine and_congr_left fun _ => forall₂_congr fun name _ => ?_
          by_cases hname : name = e.1
          · subst hname
            simp only [List.count_cons_self, List.mem_cons_self, if_true, if_neg hseen, Nat.add_zero]
          · simp only [List.count_cons_of_ne (Ne.symm hname), List.mem_cons, hname, false_or]
    · rw [put?_of_not_mem he]
      simp only [Option.bind_eq_bind, Option.bind_some, ih, he, false_implies, true_and]
      refine and_congr_left fun _ => forall₂_congr fun name hname => ?_
      have hne : e.1 ≠ name := fun heq => he (heq ▸ hname)
      rw [List.count_cons_of_ne hne]

/-- What one field of the record holds after the members: what its own member says, if there is one. -/
theorem field_foldlM_put? {β : Type} {get : σ → β} {told : Json → β} {ms : List (String × Json)}
    {s s' : σ × List String} (h : ms.foldlM (k.put? change) s = some s') (name : String) (hname : name ∈ k.names)
    (hchange : ∀ n v g s, change n v = some g → get (g s) = if n = name then told v else get s) :
    get s'.1 = (NameTable.get? name ms).elim (get s.1) told := by
  induction ms generalizing s with
  | nil =>
    cases h
    rfl
  | cons e ms ih =>
    obtain ⟨n, v⟩ := e
    rw [List.foldlM_cons] at h
    obtain ⟨t, ht, hrest⟩ := Option.bind_eq_some_iff.mp h
    rw [NameTable.get?]
    by_cases hn : n ∈ k.names
    · by_cases hseen : n ∈ s.2
      · rw [put?_of_seen hn hseen] at ht
        cases ht
      · rw [put?_of_new hn hseen] at ht
        obtain ⟨g, hg, rfl⟩ := Option.map_eq_some_iff.mp ht
        rw [ih hrest, hchange n v g s.1 hg]
        by_cases heq : n = name
        · subst heq
          -- The field was given now, so it is not given again.
          have hcount := ((isSome_foldlM_put?_iff ms _).mp (Option.isSome_of_eq_some hrest)).1 n hn
          have habsent : NameTable.get? n ms = none := by
            by_contra hgiven
            obtain ⟨w, hw⟩ := Option.ne_none_iff_exists'.mp hgiven
            have hpos : 0 < (ms.map Prod.fst).count n :=
              List.count_pos_iff.mpr (List.mem_map_of_mem (f := Prod.fst) (NameTable.mem_of_get? hw))
            rw [if_pos List.mem_cons_self] at hcount
            omega
          rw [if_pos rfl, if_pos rfl, habsent]
          rfl
        · rw [if_neg heq, if_neg heq]
    · rw [put?_of_not_mem hn] at ht
      cases ht
      have hne : n ≠ name := fun heq => hn (heq ▸ hname)
      rw [if_neg hne]
      exact ih hrest

/-! ## Lists as objects -/

theorem place?_eq_none {fs : List (Field σ)} {vs : List Json} (h : fs.length < vs.length) (s : σ) :
    k.place? change fs vs s = none := by
  induction fs generalizing vs s with
  | nil =>
    cases vs with
    | nil => cases h
    | cons v vs => rfl
  | cons f fs ih =>
    cases vs with
    | nil => cases h
    | cons v vs =>
      rw [place?, Option.bind_eq_none_iff]
      exact fun g _ => ih (Nat.lt_of_succ_lt_succ h) (g s)

theorem place?_eq_foldlM (hwhole : k.whole = false) {fs : List (Field σ)} {vs : List Json}
    (hlen : vs.length ≤ fs.length) (hnodup : (fs.map (·.name)).Nodup) (s : σ) (seen : List String)
    (hfs : ∀ name ∈ fs.map (·.name), name ∈ k.names ∧ name ∉ seen) :
    k.place? change fs vs s = (((fs.map (·.name)).zip vs).foldlM (k.put? change) (s, seen)).map Prod.fst := by
  induction fs generalizing vs s seen with
  | nil =>
    obtain rfl : vs = [] := List.length_eq_zero_iff.mp (Nat.le_zero.mp hlen)
    rfl
  | cons f fs ih =>
    cases vs with
    | nil =>
      rw [place?, hwhole]
      rfl
    | cons v vs =>
      rw [List.map_cons, List.nodup_cons] at hnodup
      obtain ⟨hname, hnew⟩ := hfs f.name List.mem_cons_self
      rw [place?, List.map_cons, List.zip_cons_cons, List.foldlM_cons, put?_of_new (e := (f.name, v)) hname hnew]
      cases hg : change f.name v with
      | none => rfl
      | some g =>
        refine ih (Nat.le_of_succ_le_succ hlen) hnodup.2 (g s) (f.name :: seen) fun name hmem => ?_
        obtain ⟨hknown, hunseen⟩ := hfs name (List.mem_cons_of_mem _ hmem)
        exact ⟨hknown, List.not_mem_cons_of_ne_of_not_mem (fun heq => hnodup.1 (heq ▸ hmem)) hunseen⟩

/-- A list stands for what the object does that names its items by the fields in their order. -/
theorem ofValue?_array (hwhole : k.whole = false) (hnodup : k.names.Nodup) {vs : List Json}
    (hlen : vs.length ≤ k.fields.length) :
    k.ofValue? change (.array vs) = k.ofValue? change (.object (k.names.zip vs)) :=
  place?_eq_foldlM hwhole hlen hnodup k.start [] fun _ hname => ⟨hname, List.not_mem_nil⟩

end Record
end FrameStream.Json
