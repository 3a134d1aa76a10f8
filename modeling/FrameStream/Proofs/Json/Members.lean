import FrameStream.Proofs.Json.Skipping

/-!
# Records read from texts as they are written

What a record makes of a written text follows from its parts alone: from what the name of each member spells, and from
what its field makes of the value that is written there (`Record.enter?`, `Record.placeTexts?`). Blanks between the
parts count for nothing, and nor do the values of members that are no fields.
-/

namespace FrameStream.Json

variable {levels : Nat} {b : UInt8} {r s t : Bytes}

/-! ## Where null may stand -/

section
variable {α : Type} {x : Reader α}

theorem optional_cons (x : Reader α) (hspace : Byte.isSpace b = false) (hnull : b ≠ Byte.letterN) (s : Bytes) :
    optional x (b :: s) = (some <$> x) (b :: s) := by
  refine (bind_of_ok (token_cons hspace)).trans ?_
  rw [if_neg fun he => hnull (Option.some.inj he)]

theorem takes_optional_null (x : Reader α) : Takes (optional x) (Byte.letterN :: restOfNull) (some none) := by
  intro r _
  refine .reads ((bind_of_ok (token_cons (by decide))).trans ?_)
  simp only [if_true]
  refine (bind_of_ok (x := advance) (a := ()) rfl).trans ?_
  exact bind_of_ok (word_append restOfNull r)

/-- Where null may stand for nothing, every other text is read as usual. -/
theorem Takes.optional {o : Option α} (h : Takes x (b :: s) o) (hspace : Byte.isSpace b = false)
    (hnull : b ≠ Byte.letterN) : Takes (optional x) (b :: s) (o.map some) := by
  intro r hr
  rw [List.cons_append, optional_cons x hspace hnull]
  exact (h r hr).map

/-- A reader that is settled on a text stays so where null may stand for nothing. -/
theorem Written.settled_optional (h : Written t) (hx : ∀ t, Written t → Settled x t) :
    Settled (optional x) t := by
  induction h with
  | blank hb _ ih => exact (ih.blank (blind_optional x) hb).settled
  | null => exact (takes_optional_null x).settled
  | wordTrue => exact ((hx _ .wordTrue).optional (by decide) (by decide)).settled
  | wordFalse => exact ((hx _ .wordFalse).optional (by decide) (by decide)).settled
  | numeral ℓ =>
    have hread := hx _ (.numeral ℓ)
    obtain ⟨b, s, hb, hfirst⟩ := ℓ.bytes_eq_cons
    rw [hb] at hread ⊢
    exact (hread.optional (isSpace_of_number hfirst) (ne_of_number hfirst (by decide))).settled
  | string ps => exact ((hx _ (.string ps)).optional (by decide) (by decide)).settled
  | list gap h _ => exact ((hx _ (.list gap h)).optional (by decide) (by decide)).settled
  | object gap h _ => exact ((hx _ (.object gap h)).optional (by decide) (by decide)).settled

end

theorem takes_optional_numeral (ℓ : Numeral) :
    Takes (optional (value levels)) ℓ.bytes (((alone numeral ℓ.bytes).map Json.number).map some) := by
  have hread := takes_value_numeral levels ℓ
  obtain ⟨b, s, hb, hfirst⟩ := ℓ.bytes_eq_cons
  rw [hb] at hread ⊢
  exact hread.optional (isSpace_of_number hfirst) (ne_of_number hfirst (by decide))

/-! ## Texts -/

theorem unwanted_fails {α : Type} (wanted : Wanted) (b : UInt8) (s : Bytes) :
    ∃ e, (unwanted wanted b : Reader α) s = .error e := by
  unfold unwanted
  split
  · exact ⟨_, rfl⟩
  split
  · exact ⟨_, rfl⟩
  cases hs : scalar b s with
  | error e => exact ⟨e, bind_of_error hs⟩
  | ok p =>
    obtain ⟨w, s'⟩ := p
    rw [bind_of_ok hs]
    cases w <;> exact ⟨_, rfl⟩

theorem blind_wantString : Blind wantString := blind_token.bind _

theorem takes_wantString (ps : List Piece) : Takes wantString (Byte.quoteMark :: enclosed ps) (spelled ps) := by
  intro r _
  have hnext : wantString (Byte.quoteMark :: enclosed ps ++ r) = quotedString (enclosed ps ++ r) :=
    (bind_of_ok (token_cons (by decide))).trans (bind_of_ok (x := advance) rfl)
  rw [hnext]
  exact quotedString_enclosed ps r

/-- A text that is no string is refused where one is wanted. -/
theorem takes_wantString_other (hspace : Byte.isSpace b = false) (hquote : b ≠ Byte.quoteMark) :
    Takes wantString (b :: s) none := by
  intro r _
  obtain ⟨e, he⟩ := unwanted_fails (α := String) .string b (b :: (s ++ r))
  refine .fails (e := e) ((bind_of_ok (token_cons hspace)).trans ?_)
  simp only [if_neg hquote]
  exact he

theorem Written.settled_wantString (h : Written t) : Settled wantString t := by
  induction h with
  | blank hb _ ih => exact (ih.blank blind_wantString hb).settled
  | numeral ℓ =>
    obtain ⟨b, s, hb, hfirst⟩ := ℓ.bytes_eq_cons
    rw [hb]
    exact (takes_wantString_other (isSpace_of_number hfirst) (ne_of_number hfirst (by decide))).settled
  | string ps => exact (takes_wantString ps).settled
  | _ => exact (takes_wantString_other (by decide) (by decide)).settled

/-! ## Whole texts -/

/-- A text was read, and nothing but blanks is left. -/
theorem readAll_of_blanks {α : Type} {x : Reader α} {a : α} {w : Blanks} (h : x s = .ok (a, w.bytes)) :
    readAll x s = .ok a := by
  have hblind : Blind endOfText := blind_token.bind _
  have hend : endOfText w.bytes = .ok ((), []) := by
    rw [← List.append_nil w.bytes, hblind.blanks w]
    rfl
  have hall : (x <* endOfText) s = .ok (a, []) := (bind_of_ok h).trans (bind_of_ok hend)
  rw [readAll, hall]

/-! ## Records -/

theorem repeated_fails {α : Type} (name : String) (s : Bytes) : ∃ e, (repeated name : Reader α) s = .error e := by
  cases hs : token s with
  | error e => exact ⟨e, bind_of_error hs⟩
  | ok p =>
    obtain ⟨b, s'⟩ := p
    have hnext : (repeated name : Reader α) s = _ := bind_of_ok hs
    rw [hnext]
    split <;> exact ⟨_, rfl⟩

theorem endOfList_fails {b : UInt8} {s : Bytes} (hspace : Byte.isSpace b = false) (hclose : b ≠ Byte.closeList) :
    ∃ e, endOfList (b :: s) = .error e := by
  have hnext : endOfList (b :: s) = _ := bind_of_ok (token_cons hspace)
  rw [hnext]
  simp only [if_neg hclose]
  split
  · cases hs : token s with
    | error e => exact ⟨e, (bind_of_ok (x := advance) rfl).trans (bind_of_error hs)⟩
    | ok p =>
      obtain ⟨c, s'⟩ := p
      rw [bind_of_ok (x := advance) (a := ()) (r := s) rfl, bind_of_ok hs]
      cases c with
      | none => exact ⟨_, rfl⟩
      | some c =>
        simp only
        split <;> exact ⟨_, rfl⟩
  · exact ⟨_, rfl⟩

/-- A member of an object but for its value. -/
structure Slot where
  before : Blanks
  name : List Piece
  mid : Blanks
  lead : Blanks
  after : Blanks

def Slot.entry (s : Slot) (t : Bytes) : Entry := ⟨s.before, s.name, s.mid, s.lead.bytes ++ t, s.after⟩

/-- Members are written by the rules if the one in the middle is. -/
theorem written_slot {es es' : List Entry} (h : ∀ e ∈ es ++ es', Written e.value) (slot : Slot) (ht : Written t) :
    ∀ e ∈ es ++ slot.entry t :: es', Written e.value := by
  obtain ⟨hbefore, hafter⟩ := List.forall_mem_append.mp h
  exact List.forall_mem_append.mpr ⟨hbefore, List.forall_mem_cons.mpr ⟨ht.blanks slot.lead, hafter⟩⟩

namespace Record

variable {σ : Type} (k : Record σ)

/-- Every field is read alike wherever a text stands. -/
structure Local (levels : Nat) : Prop where
  blind : ∀ f ∈ k.fields, Blind (f.read levels)
  settled : ∀ f ∈ k.fields, ∀ t, Written t → Settled (f.read levels) t

/-- The record and the names seen so far after a member of that name, whose value is written as `t`; nothing if its
field was given before or does not take the value. -/
def putText? (levels : Nat) (name : String) (s : σ × List String) (t : Bytes) : Option (σ × List String) :=
  match k.fields.find? (·.name = name) with
  | none => some s
  | some f => if name ∈ s.2 then none else (alone (f.read levels) t).map fun change => (change s.1, name :: s.2)

/-- The same for a member as it is written. -/
def enter? (levels : Nat) (s : σ × List String) (e : Entry) : Option (σ × List String) :=
  (spelled e.name).bind fun name => k.putText? levels name s e.value

/-- The record after items are placed into fields in their order; nothing if there are too many, or too few for a list
that has to be whole, or a field does not take its item. -/
def placeTexts? (levels : Nat) : List (Field σ) → List Item → σ → Option σ
  | [], [], s => some s
  | [], _ :: _, _ => none
  | _ :: _, [], s => if k.whole then none else some s
  | f :: fs, i :: is, s => (alone (f.read levels) i.value).bind fun change => placeTexts? levels fs is (change s)

variable {k}

/-- What it takes for a member to be put into the record: its name is no field, or a field that was not given before
and that takes the value. -/
theorem enter?_eq_some {s s' : σ × List String} {e : Entry} (h : k.enter? levels s e = some s') :
    ∃ name, spelled e.name = some name ∧ (s' = s ∨ ∃ f ∈ k.fields, f.name = name ∧ name ∉ s.2 ∧
      ∃ change, alone (f.read levels) e.value = some change ∧ s' = (change s.1, name :: s.2)) := by
  obtain ⟨name, hname, hput⟩ := Option.bind_eq_some_iff.mp h
  refine ⟨name, hname, ?_⟩
  unfold putText? at hput
  cases hf : k.fields.find? (·.name = name) with
  | none =>
    rw [hf] at hput
    cases hput
    exact .inl rfl
  | some f =>
    rw [hf] at hput
    by_cases hseen : name ∈ s.2
    · simp only [if_pos hseen] at hput
      cases hput
    · simp only [if_neg hseen] at hput
      obtain ⟨change, hchange, rfl⟩ := Option.map_eq_some_iff.mp hput
      have hfound : f.name = name := by simpa using List.find?_some hf
      exact .inr ⟨f, List.mem_of_find?_eq_some hf, hfound, hseen, change, hchange, rfl⟩

/-- A member whose name is that of a field puts into the record what the field makes of its value, unless the field was
given before. -/
theorem enter?_slot (hk : k.Local levels) {f : Field σ} {name : String}
    (hf : k.fields.find? (·.name = name) = some f) {slot : Slot} (hname : spelled slot.name = some name)
    {o : Option (σ → σ)} (ho : Takes (f.read levels) t o) (s : σ × List String) :
    k.enter? levels s (slot.entry t) =
      if name ∈ s.2 then none else o.map fun change => (change s.1, name :: s.2) := by
  have hread : alone (f.read levels) (slot.lead.bytes ++ t) = o :=
    (ho.blanks (hk.blind f (List.mem_of_find?_eq_some hf)) slot.lead).eq_alone
  rw [enter?, Slot.entry, hname, Option.bind_some, putText?, hf]
  simp only [hread]

theorem member_takes (hk : k.Local levels) {e : Entry} (h : Written e.value) (name : String) (s : σ × List String)
    (hr : Ends r) :
    Yields (k.member levels name s (e.mid.bytes ++ Byte.colon :: (e.value ++ r))) r
      (k.putText? levels name s e.value) := by
  unfold member putText?
  cases hf : k.fields.find? (·.name = name) with
  | none =>
    refine .reads ((bind_of_ok (colon_blanks e.mid _)).trans ?_)
    exact bind_of_ok (h.takes_skipValue r hr).eq
  | some f =>
    have hmem : f ∈ k.fields := List.mem_of_find?_eq_some hf
    by_cases hseen : name ∈ s.2
    · simp only [if_pos hseen]
      obtain ⟨x, hx⟩ := repeated_fails (α := σ × List String) name (e.mid.bytes ++ Byte.colon :: (e.value ++ r))
      exact .fails hx
    · simp only [if_neg hseen]
      rw [bind_of_ok (colon_blanks e.mid _), Option.map_eq_bind]
      exact (hk.settled f hmem e.value h r hr).bind fun change _ => .reads rfl

/-- Reading an object puts its members into the record one by one. -/
theorem takes_object (hk : k.Local levels) {es : List Entry} (h : ∀ e ∈ es, Written e.value) (gap : Blanks) :
    Takes (k.read (levels + 1)) (objectBytes es gap)
      ((es.foldlM (k.enter? levels) (k.start, [])).map Prod.fst) := by
  intro r _
  have hread := members_inside (fun name s e => k.putText? levels name s e.value)
    (fun e he name s r _ hr => member_takes hk (h e he) name s hr) gap _
    (length_lt_bytes Entry.bytes es gap.bytes Byte.closeObject r) true Blanks.none (k.start, []) r
  have hnext : k.read (levels + 1) (objectBytes es gap ++ r) =
      (members (k.member levels)
          ((inside true (es.map Entry.bytes) ++ (gap.bytes ++ Byte.closeObject :: r)).length + 1) true (k.start, []) >>=
        fun s => pure s.1) (inside true (es.map Entry.bytes) ++ (gap.bytes ++ Byte.closeObject :: r)) := by
    rw [objectBytes_append]
    refine (bind_of_ok (token_cons (by decide))).trans ?_
    exact (bind_of_ok (x := advance) (a := ()) rfl).trans (bind_of_ok (x := bound) rfl)
  rw [hnext, Option.map_eq_bind]
  exact hread.bind fun s _ => .reads rfl

/-- An item is left over, and the reader stands before it or before its comma. -/
theorem endOfList_inside (first : Bool) (ht : Led t) (ts : List Bytes) (w : Blanks) (r : Bytes) :
    ∃ e, endOfList (w.bytes ++ (inside first (t :: ts) ++ r)) = .error e := by
  have hblind : Blind endOfList := blind_token.bind _
  rw [hblind.blanks w]
  cases first with
  | true =>
    obtain ⟨w, b, s, rfl, hspace, hclose, -⟩ := ht
    obtain ⟨e, he⟩ := endOfList_fails (s := s ++ (inside false ts ++ r)) hspace hclose
    refine ⟨e, ?_⟩
    rw [inside, List.append_assoc, List.append_assoc, hblind.blanks w, List.cons_append]
    exact he
  | false => exact endOfList_fails (by decide) (by decide)

theorem positional_takes (hk : k.Local levels) {fs : List (Field σ)} (hfs : ∀ f ∈ fs, f ∈ k.fields) {is : List Item}
    (h : ∀ i ∈ is, Written i.value) (gap : Blanks) (n : Nat) (w : Blanks) (s : σ) (r : Bytes) :
    Yields (k.positional levels fs n s
        (w.bytes ++ (inside (n = 0) (is.map Item.bytes) ++ (gap.bytes ++ Byte.closeList :: r)))) r
      (k.placeTexts? levels fs is s) := by
  have hblind : Blind endOfList := blind_token.bind _
  induction fs generalizing is n w s with
  | nil =>
    cases is with
    | nil =>
      rw [List.map_nil, inside_nil, List.nil_append]
      refine .reads (bind_of_ok (a := ()) (r := r) ?_)
      rw [hblind.blanks w, hblind.blanks gap]
      exact endOfList_close
    | cons i is =>
      obtain ⟨e, he⟩ := endOfList_inside (decide (n = 0)) ((h i List.mem_cons_self).led.append i.after.bytes)
        (is.map Item.bytes) w (gap.bytes ++ Byte.closeList :: r)
      exact .fails (bind_of_error he)
  | cons f fs ih =>
    cases is with
    | nil =>
      rw [List.map_nil, inside_nil, List.nil_append]
      have hnext : k.positional levels (f :: fs) n s (w.bytes ++ (gap.bytes ++ Byte.closeList :: r)) =
          (if k.whole then fault (.wrongLength n k.name k.fields.length) else pure s : Reader σ) r := by
        refine (((blind_moreItems (n = 0)).bind _).blanks w _).trans ?_
        exact (bind_of_ok (moreItems_gap gap r)).trans (bind_of_ok endOfList_close)
      rw [hnext, placeTexts?]
      split
      · exact .fails rfl
      · exact .reads rfl
    | cons i is =>
      have hf : f ∈ k.fields := hfs f List.mem_cons_self
      have hends : Ends (i.after.bytes ++ (inside false (is.map Item.bytes) ++ (gap.bytes ++ Byte.closeList :: r))) :=
        ends_blanks _ (ends_inside (ends_blanks gap (ends_cons (by decide))) _)
      have hnext : k.positional levels (f :: fs) n s
          (w.bytes ++ (inside (n = 0) (i.bytes :: is.map Item.bytes) ++ (gap.bytes ++ Byte.closeList :: r))) =
          (f.read levels >>= fun change => k.positional levels fs (n + 1) (change s))
            (i.value ++ (i.after.bytes ++
              (inside false (is.map Item.bytes) ++ (gap.bytes ++ Byte.closeList :: r)))) := by
        rw [← List.append_assoc i.value]
        refine (((blind_moreItems (n = 0)).bind _).blanks w _).trans ?_
        exact moreItems_inside ((hk.blind f hf).bind _) ((h i List.mem_cons_self).led.append _) _ _
      rw [List.map_cons, hnext]
      exact (hk.settled f hf i.value (h i List.mem_cons_self) _ hends).bind fun change _ =>
        ih (fun f hf => hfs f (List.mem_cons_of_mem _ hf)) (fun j hj => h j (List.mem_cons_of_mem _ hj)) (n + 1)
          i.after (change s)

/-- Placing goes on with the fields and the items that are left. -/
theorem placeTexts?_append {fs : List (Field σ)} {is : List Item} (h : fs.length = is.length) (fs' : List (Field σ))
    (is' : List Item) (s : σ) : k.placeTexts? levels (fs ++ fs') (is ++ is') s =
      (k.placeTexts? levels fs is s).bind (k.placeTexts? levels fs' is') := by
  induction fs generalizing is s with
  | nil =>
    obtain rfl : is = [] := List.length_eq_zero_iff.mp h.symm
    rfl
  | cons f fs ih =>
    cases is with
    | nil => cases h
    | cons i is =>
      rw [List.cons_append, List.cons_append, placeTexts?, placeTexts?, Option.bind_assoc]
      exact Option.bind_congr fun change _ => ih (Nat.succ.inj h) (change s)

/-- Reading a list places its items into the fields in their order. -/
theorem takes_list (hk : k.Local levels) {is : List Item} (h : ∀ i ∈ is, Written i.value) (gap : Blanks) :
    Takes (k.read (levels + 1)) (listBytes is gap) (k.placeTexts? levels k.fields is k.start) := by
  intro r _
  have hnext : k.read (levels + 1) (listBytes is gap ++ r) =
      k.positional levels k.fields 0 k.start
        (inside true (is.map Item.bytes) ++ (gap.bytes ++ Byte.closeList :: r)) := by
    rw [listBytes_append]
    exact (bind_of_ok (token_cons (by decide))).trans (bind_of_ok (x := advance) (a := ()) rfl)
  rw [hnext]
  exact positional_takes hk (fun _ hf => hf) h gap 0 Blanks.none k.start r

/-- A text that begins with no bracket is no record. -/
theorem takes_read_other (k : Record σ) (hspace : Byte.isSpace b = false) (hlist : b ≠ Byte.openList)
    (hobject : b ≠ Byte.openObject) : Takes (k.read levels) (b :: s) none := by
  intro r _
  obtain ⟨e, he⟩ := unwanted_fails (α := σ) (.record k.name) b (b :: (s ++ r))
  refine .fails (e := e) ((bind_of_ok (token_cons hspace)).trans ?_)
  simp only [if_neg hlist, if_neg hobject]
  exact he

theorem blind_read (levels : Nat) : Blind (k.read levels) := blind_token.bind _

/-- Blanks around a whole text do not matter. -/
theorem parse_of_takes {o : Option σ} (h : Takes (k.read maxLevels) t o) (before after : Blanks) :
    (k.parse (before.bytes ++ (t ++ after.bytes))).toOption = o := by
  have hends : Ends after.bytes := by
    rw [← List.append_nil after.bytes]
    exact ends_blanks after ends_nil
  have hread := h after.bytes hends
  rw [← (k.blind_read maxLevels).blanks before] at hread
  rw [parse]
  cases hread with
  | reads hs => rw [readAll_of_blanks hs]; rfl
  | fails hs => rw [readAll_of_error hs]; rfl

end Record
end FrameStream.Json
