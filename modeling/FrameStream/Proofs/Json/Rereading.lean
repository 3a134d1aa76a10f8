import FrameStream.Proofs.Json.Grammar
import FrameStream.Proofs.NameTable

/-!
# A value's text reads as the value

The compact text of a value is written by the rules, with no blanks. Reading it gives that value again, its objects in
the order of their names and each name with the member that came last. This holds wherever the text stands in a longer
one, so the reader takes exactly the text. Values with binary numbers are left out.
-/

namespace FrameStream.Json

/-! ## Values that read back -/

/-- A value without binary numbers, its whole numbers of 64 bits, with at most so many brackets open at once. -/
inductive Plain : Nat → Json → Prop
  | null {levels : Nat} : Plain levels .null
  | bool {levels : Nat} (b : Bool) : Plain levels (.bool b)
  | whole {levels : Nat} {i : Int} (hlow : -(twoTo 63 : Int) ≤ i) (hhigh : i ≤ maxWhole) :
      Plain levels (.number (.whole i))
  | string {levels : Nat} (s : String) : Plain levels (.string s)
  | array {levels : Nat} {vs : List Json} (h : ∀ v ∈ vs, Plain levels v) : Plain (levels + 1) (.array vs)
  | object {levels : Nat} {ms : List (String × Json)} (h : ∀ e ∈ ms, Plain levels e.2) :
      Plain (levels + 1) (.object ms)

mutual
/-- The value with the members of its objects in the order of their names, each name with what came last. -/
def sorted : Json → Json
  | .null => .null
  | .bool b => .bool b
  | .number n => .number n
  | .string s => .string s
  | .array vs => .array (sortedItems vs)
  | .object ms => .object (sortedMembers [] ms)

def sortedItems : List Json → List Json
  | [] => []
  | v :: vs => sorted v :: sortedItems vs

/-- The members put into the table one by one. -/
def sortedMembers (done : NameTable Json) : List (String × Json) → NameTable Json
  | [] => done
  | (name, v) :: ms => sortedMembers (NameTable.insert name (sorted v) done) ms
end

/-- A value whose objects have their names in ascending order. -/
inductive Tidy : Json → Prop
  | null : Tidy .null
  | bool (b : Bool) : Tidy (.bool b)
  | number (n : Number) : Tidy (.number n)
  | string (s : String) : Tidy (.string s)
  | array {vs : List Json} (h : ∀ v ∈ vs, Tidy v) : Tidy (.array vs)
  | object {ms : List (String × Json)} (hnames : (ms.map Prod.fst).Pairwise (· < ·)) (h : ∀ e ∈ ms, Tidy e.2) :
      Tidy (.object ms)

theorem sortedItems_eq_map (vs : List Json) : sortedItems vs = vs.map sorted := by
  induction vs with
  | nil => rfl
  | cons v vs ih => rw [sortedItems, ih, List.map_cons]

theorem sortedMembers_of_tidy {ms : List (String × Json)} (hsorted : ∀ e ∈ ms, sorted e.2 = e.2)
    (done : NameTable Json) (hnames : ((done ++ ms).map Prod.fst).Pairwise (· < ·)) :
    sortedMembers done ms = done ++ ms := by
  induction ms generalizing done with
  | nil => rw [sortedMembers, List.append_nil]
  | cons e ms ih =>
    obtain ⟨name, v⟩ := e
    have habove : ∀ n ∈ done.map Prod.fst, n < name := by
      rw [List.map_append, List.pairwise_append] at hnames
      exact fun n hn => hnames.2.2 n hn name List.mem_cons_self
    have hgrown : done ++ (name, v) :: ms = (done ++ [(name, v)]) ++ ms := by simp
    rw [sortedMembers, hsorted (name, v) List.mem_cons_self, NameTable.insert_of_above habove, hgrown]
    rw [hgrown] at hnames
    exact ih (fun e he => hsorted e (List.mem_cons_of_mem _ he)) _ hnames

theorem sorted_of_tidy {v : Json} (h : v.Tidy) : v.sorted = v := by
  induction h with
  | null => rfl
  | bool b => rfl
  | number n => rfl
  | string s => rfl
  | @array vs _ ih => rw [sorted, sortedItems_eq_map, List.map_congr_left ih, List.map_id']
  | @object ms hnames _ ih => rw [sorted, sortedMembers_of_tidy ih [] hnames, List.nil_append]

/-! ## The text of a value -/

theorem ofText_commas (ts : List String) : Bytes.ofText (commas ts) = inside true (ts.map Bytes.ofText) := by
  have hcomma : Bytes.ofText "," = [Byte.comma] := by decide
  cases ts with
  | nil => rfl
  | cons t ts =>
    induction ts generalizing t with
    | nil => exact (List.append_nil _).symm
    | cons u us ih =>
      show Bytes.ofText (t ++ "," ++ commas (u :: us)) = _
      rw [Bytes.ofText_append, Bytes.ofText_append, hcomma, ih, List.append_assoc]
      rfl

theorem texts_eq_map (vs : List Json) : texts vs = vs.map text := by
  induction vs with
  | nil => rfl
  | cons v vs ih => rw [texts, ih, List.map_cons]

/-- The text of a member of an object. -/
def memberText (e : String × Json) : String := quote e.1 ++ ":" ++ text e.2

theorem memberTexts_eq_map (ms : List (String × Json)) : memberTexts ms = ms.map memberText := by
  induction ms with
  | nil => rfl
  | cons e ms ih => rw [memberTexts, ih, List.map_cons, memberText]

theorem ofText_memberText (e : String × Json) :
    Bytes.ofText (memberText e) = Bytes.ofText (quote e.1) ++ Byte.colon :: Bytes.ofText e.2.text := by
  have hcolon : Bytes.ofText ":" = [Byte.colon] := by decide
  rw [memberText, Bytes.ofText_append, Bytes.ofText_append, hcolon, List.append_assoc, List.singleton_append]

/-- An item of a list in a compact text. -/
def itemOf (v : Json) : Item := ⟨Bytes.ofText v.text, Blanks.none⟩

/-- A member of an object in a compact text. -/
noncomputable def entryOf (e : String × Json) : Entry :=
  ⟨Blanks.none, quoted e.1, Blanks.none, Bytes.ofText e.2.text, Blanks.none⟩

theorem ofText_array (vs : List Json) : Bytes.ofText (Json.array vs).text = listBytes (vs.map itemOf) Blanks.none := by
  have hopen : Bytes.ofText "[" = [Byte.openList] := by decide
  have hclose : Bytes.ofText "]" = [Byte.closeList] := by decide
  have hitem : ∀ v, (itemOf v).bytes = Bytes.ofText v.text := fun v => List.append_nil _
  rw [text, Bytes.ofText_append, Bytes.ofText_append, hopen, hclose, texts_eq_map, ofText_commas, listBytes]
  simp only [List.map_map, Function.comp_def, hitem]
  rfl

theorem ofText_object (ms : List (String × Json)) :
    Bytes.ofText (Json.object ms).text = objectBytes (ms.map entryOf) Blanks.none := by
  have hopen : Bytes.ofText "\x7b" = [Byte.openObject] := by decide
  have hclose : Bytes.ofText "\x7d" = [Byte.closeObject] := by decide
  have hentry : ∀ e, (entryOf e).bytes = Bytes.ofText (memberText e) := fun e => by
    rw [ofText_memberText, ofText_quote]
    simp [Entry.bytes, entryOf, Blanks.none]
  rw [text, Bytes.ofText_append, Bytes.ofText_append, hopen, hclose, memberTexts_eq_map, ofText_commas, objectBytes]
  simp only [List.map_map, Function.comp_def, hentry]
  rfl

theorem ofText_null : Bytes.ofText Json.null.text = Byte.letterN :: restOfNull := by decide

theorem ofText_true : Bytes.ofText (Json.bool true).text = Byte.letterT :: restOfTrue := by decide

theorem ofText_false : Bytes.ofText (Json.bool false).text = Byte.letterF :: restOfFalse := by decide

theorem ofText_number (i : Int) : Bytes.ofText (Json.number (.whole i)).text = (Numeral.ofWhole i).bytes :=
  ofText_whole i

theorem ofText_string (s : String) : Bytes.ofText (Json.string s).text = Byte.quoteMark :: enclosed (quoted s) :=
  ofText_quote s

/-- The compact text of a value is written by the rules. -/
theorem written_text {levels : Nat} {v : Json} (h : Plain levels v) : Written (Bytes.ofText v.text) := by
  induction h with
  | null => exact ofText_null ▸ .null
  | bool b =>
    cases b with
    | true => exact ofText_true ▸ .wordTrue
    | false => exact ofText_false ▸ .wordFalse
  | whole => exact ofText_number _ ▸ .numeral _
  | string s => exact ofText_string s ▸ .string _
  | array _ ih => exact ofText_array _ ▸ .list Blanks.none (List.forall_mem_map.mpr ih)
  | object _ ih => exact ofText_object _ ▸ .object Blanks.none (List.forall_mem_map.mpr ih)

/-! ## Reading it again -/

section
variable {levels : Nat}

theorem mapM_itemOf {vs : List Json} (h : ∀ v ∈ vs, Takes (value levels) (Bytes.ofText v.text) (some v.sorted)) :
    ((vs.map itemOf).mapM fun i => alone (value levels) i.value) = some (sortedItems vs) := by
  induction vs with
  | nil => rfl
  | cons v vs ih =>
    obtain ⟨hv, hvs⟩ := List.forall_mem_cons.mp h
    rw [List.map_cons, List.mapM_cons, ih hvs, show (itemOf v).value = Bytes.ofText v.text from rfl, hv.eq_alone]
    rfl

theorem foldlM_entryOf {ms : List (String × Json)}
    (h : ∀ e ∈ ms, Takes (value levels) (Bytes.ofText e.2.text) (some e.2.sorted)) (done : NameTable Json) :
    (ms.map entryOf).foldlM (insert? levels) done = some (sortedMembers done ms) := by
  induction ms generalizing done with
  | nil => rfl
  | cons e ms ih =>
    obtain ⟨he, hms⟩ := List.forall_mem_cons.mp h
    have hinsert : insert? levels done (entryOf e) = some (NameTable.insert e.1 e.2.sorted done) := by
      rw [insert?, entryOf, spelled_quoted, Option.bind_some, he.eq_alone, Option.map_some]
    rw [List.map_cons, List.foldlM_cons, hinsert]
    exact ih hms _

/-- The text of a plain value reads as the value, its objects sorted, and nothing more than the text is taken. -/
theorem takes_text {v : Json} (h : Plain levels v) : Takes (value levels) (Bytes.ofText v.text) (some v.sorted) := by
  induction h with
  | null => exact ofText_null ▸ takes_value_word (by decide) (by decide) (by decide) rfl
  | bool b =>
    cases b with
    | true => exact ofText_true ▸ takes_value_word (by decide) (by decide) (by decide) rfl
    | false => exact ofText_false ▸ takes_value_word (by decide) (by decide) (by decide) rfl
  | @whole levels i hlow hhigh =>
    have hread := takes_value_numeral levels (Numeral.ofWhole i)
    rw [(takes_numeral_ofWhole hlow hhigh).eq_alone] at hread
    exact ofText_number i ▸ hread
  | @string levels s =>
    have hread : Takes (value levels) _ _ := takes_value_string (quoted s)
    rw [spelled_quoted] at hread
    exact ofText_string s ▸ hread
  | @array levels vs h ih =>
    have hled : ∀ i ∈ vs.map itemOf, Led i.value := List.forall_mem_map.mpr fun v hv => (written_text (h v hv)).led
    have hitem : ∀ i ∈ vs.map itemOf, Settled (value levels) i.value :=
      List.forall_mem_map.mpr fun v hv => (ih v hv).settled
    have hread := takes_value_list hled hitem Blanks.none
    rw [mapM_itemOf ih] at hread
    exact ofText_array vs ▸ hread
  | @object levels ms _ ih =>
    have hentry : ∀ e ∈ ms.map entryOf, Settled (value levels) e.value :=
      List.forall_mem_map.mpr fun e he => (ih e he).settled
    have hread := takes_value_object hentry Blanks.none
    rw [foldlM_entryOf ih] at hread
    exact ofText_object ms ▸ hread

/-- The text of a plain value, read alone. -/
theorem parse_text {v : Json} (h : Plain maxLevels v) : parse (Bytes.ofText v.text) = .ok v.sorted := by
  have hread := takes_text h [] ends_nil
  rw [List.append_nil] at hread
  exact readAll_of_ok hread.eq

end

end FrameStream.Json
