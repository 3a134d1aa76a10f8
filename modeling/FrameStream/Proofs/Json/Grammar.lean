import FrameStream.Proofs.Json.Numerals

/-!
# Texts as they are written

A text is written by the rules of the grammar (`Written`): words, numerals and strings in any spelling, lists and
objects, with blanks wherever they may stand. What reading makes of such a text does not depend on what comes after it
(`Written.settled_value`): the reader takes just the text, or finds a fault in it. Brackets nested too deep are such a
fault, and so are strings that spell no text.
-/

namespace FrameStream.Json

/-! ## The grammar -/

/-- Blanks between the parts of a text. -/
structure Blanks where
  bytes : Bytes
  spaces : ∀ b ∈ bytes, Byte.isSpace b = true

/-- No blanks at all. -/
def Blanks.none : Blanks := ⟨[], List.forall_mem_nil _⟩

/-- An item of a list, with the blanks up to what follows. -/
structure Item where
  value : Bytes
  after : Blanks

def Item.bytes (i : Item) : Bytes := i.value ++ i.after.bytes

/-- A member of an object, with the blanks around its name and up to what follows. -/
structure Entry where
  before : Blanks
  name : List Piece
  mid : Blanks
  value : Bytes
  after : Blanks

def Entry.bytes (e : Entry) : Bytes :=
  e.before.bytes ++ Byte.quoteMark :: (enclosed e.name ++ (e.mid.bytes ++ Byte.colon :: (e.value ++ e.after.bytes)))

/-- What is still to come inside brackets; a comma is in front of each text but the first. -/
def inside : Bool → List Bytes → Bytes
  | _, [] => []
  | true, t :: ts => t ++ inside false ts
  | false, t :: ts => Byte.comma :: (t ++ inside false ts)

def listBytes (is : List Item) (gap : Blanks) : Bytes :=
  Byte.openList :: (inside true (is.map Item.bytes) ++ (gap.bytes ++ [Byte.closeList]))

def objectBytes (es : List Entry) (gap : Blanks) : Bytes :=
  Byte.openObject :: (inside true (es.map Entry.bytes) ++ (gap.bytes ++ [Byte.closeObject]))

/-- The text of a value by the rules of the grammar, blanks in front of it included. -/
inductive Written : Bytes → Prop
  | blank {b : UInt8} {t : Bytes} (hb : Byte.isSpace b = true) (h : Written t) : Written (b :: t)
  | null : Written (Byte.letterN :: restOfNull)
  | wordTrue : Written (Byte.letterT :: restOfTrue)
  | wordFalse : Written (Byte.letterF :: restOfFalse)
  | numeral (ℓ : Numeral) : Written ℓ.bytes
  | string (ps : List Piece) : Written (Byte.quoteMark :: enclosed ps)
  | list {is : List Item} (gap : Blanks) (h : ∀ i ∈ is, Written i.value) : Written (listBytes is gap)
  | object {es : List Entry} (gap : Blanks) (h : ∀ e ∈ es, Written e.value) : Written (objectBytes es gap)

variable {r s t : Bytes} {first : Bool}

theorem inside_nil (first : Bool) : inside first [] = [] := by
  cases first <;> rfl

theorem length_le_inside (ts : List Bytes) : ts.length ≤ (inside true ts).length + 1 := by
  have hrest : ∀ ts : List Bytes, ts.length ≤ (inside false ts).length := by
    intro ts
    induction ts with
    | nil => exact Nat.le_refl 0
    | cons t ts ih =>
      rw [inside, List.length_cons, List.length_cons, List.length_append]
      omega
  cases ts with
  | nil => exact Nat.zero_le _
  | cons t ts =>
    have hle := hrest ts
    rw [inside, List.length_cons, List.length_append]
    omega

/-! ## Blanks -/

section
variable {α β : Type} {x : Reader α}

/-- Blanks in front do not matter to the reader. -/
def Blind (x : Reader α) : Prop := ∀ b s, Byte.isSpace b = true → x (b :: s) = x s

theorem Blind.blanks (hx : Blind x) (w : Blanks) (s : Bytes) : x (w.bytes ++ s) = x s := by
  obtain ⟨bs, hbs⟩ := w
  induction bs with
  | nil => rfl
  | cons b bs ih =>
    obtain ⟨hb, hbs⟩ := List.forall_mem_cons.mp hbs
    exact (hx b _ hb).trans (ih hbs)

theorem blind_token : Blind token := by
  intro b s hb
  simp only [token, List.dropWhile_cons_of_pos hb]

theorem Blind.bind (hx : Blind x) (f : α → Reader β) : Blind (x >>= f) := by
  intro b s hb
  show (x (b :: s) >>= fun p => f p.1 p.2) = (x s >>= fun p => f p.1 p.2)
  rw [hx b s hb]

theorem Blind.map (hx : Blind x) (g : α → β) : Blind (g <$> x) := by
  intro b s hb
  show (x (b :: s) >>= fun p => pure (g p.1, p.2)) = (x s >>= fun p => pure (g p.1, p.2))
  rw [hx b s hb]

theorem blind_value (levels : Nat) : Blind (value levels) := by
  cases levels with
  | zero => exact blind_token.bind _
  | succ levels => exact blind_token.bind _

theorem blind_moreItems (first : Bool) : Blind (moreItems first) := blind_token.bind _

theorem blind_optional (x : Reader α) : Blind (optional x) := blind_token.bind _

end

theorem token_blanks (w : Blanks) {b : UInt8} (hspace : Byte.isSpace b = false) (s : Bytes) :
    token (w.bytes ++ b :: s) = .ok (some b, b :: s) :=
  (blind_token.blanks w _).trans (token_cons hspace)

theorem ends_blanks (w : Blanks) (h : Ends s) : Ends (w.bytes ++ s) := by
  obtain ⟨bs, hbs⟩ := w
  cases bs with
  | nil => exact h
  | cons b bs =>
    have hspace := hbs b List.mem_cons_self
    simp only [Byte.isSpace, Bool.or_eq_true, beq_iff_eq] at hspace
    refine ends_cons ?_
    rcases hspace with ((h | h) | h) | h <;> rw [h] <;> decide

theorem ends_inside (h : Ends s) (ts : List Bytes) : Ends (inside false ts ++ s) := by
  cases ts with
  | nil => exact h
  | cons t ts => exact ends_cons (by decide)

/-! ## Outcomes that do not depend on what follows -/

section
variable {α β : Type} {x : Reader α}

/-- What the reader makes of a text that nothing follows. -/
def alone (x : Reader α) (t : Bytes) : Option α :=
  match x t with
  | .ok (a, []) => some a
  | _ => none

/-- What the reader makes of the text does not depend on what follows. -/
def Settled (x : Reader α) (t : Bytes) : Prop := Takes x t (alone x t)

theorem Takes.eq_alone {o : Option α} (h : Takes x t o) : alone x t = o := by
  have hread := h [] ends_nil
  rw [List.append_nil] at hread
  unfold alone
  cases hread with
  | reads hx => rw [hx]
  | fails hx => rw [hx]

theorem Takes.settled {o : Option α} (h : Takes x t o) : Settled x t := by
  rw [Settled, h.eq_alone]
  exact h

theorem Takes.map {o : Option α} (h : Takes x t o) (g : α → β) : Takes (g <$> x) t (o.map g) := fun r hr =>
  (h r hr).map

theorem Settled.map (h : Settled x t) (g : α → β) : Settled (g <$> x) t := (Takes.map h g).settled

theorem alone_map (x : Reader α) (g : α → β) (t : Bytes) : alone (g <$> x) t = (alone x t).map g := by
  have hmap : (g <$> x) t = x t >>= fun p => pure (g p.1, p.2) := rfl
  rw [alone, alone, hmap]
  cases x t with
  | error e => rfl
  | ok p =>
    obtain ⟨a, s⟩ := p
    cases s <;> rfl

theorem Takes.blank {o : Option α} {b : UInt8} (hx : Blind x) (hb : Byte.isSpace b = true) (h : Takes x t o) :
    Takes x (b :: t) o := by
  intro r hr
  rw [List.cons_append, hx b _ hb]
  exact h r hr

theorem Takes.blanks {o : Option α} (hx : Blind x) (w : Blanks) (h : Takes x t o) : Takes x (w.bytes ++ t) o := by
  intro r hr
  rw [List.append_assoc, hx.blanks w]
  exact h r hr

end

/-! ## How a text begins -/

/-- After blanks, the text begins with a byte that is neither a blank nor closes anything. -/
def Led (t : Bytes) : Prop :=
  ∃ (w : Blanks) (b : UInt8) (s : Bytes), t = w.bytes ++ b :: s ∧ Byte.isSpace b = false ∧
    b ≠ Byte.closeList ∧ b ≠ Byte.closeObject

theorem led_cons {b : UInt8} (hspace : Byte.isSpace b = false) (hlist : b ≠ Byte.closeList)
    (hobject : b ≠ Byte.closeObject) : Led (b :: s) :=
  ⟨Blanks.none, b, s, rfl, hspace, hlist, hobject⟩

theorem Led.blank {b : UInt8} (hb : Byte.isSpace b = true) (h : Led t) : Led (b :: t) := by
  obtain ⟨w, c, s, rfl, hc⟩ := h
  exact ⟨⟨b :: w.bytes, List.forall_mem_cons.mpr ⟨hb, w.spaces⟩⟩, c, s, rfl, hc⟩

theorem Led.append (h : Led t) (s : Bytes) : Led (t ++ s) := by
  obtain ⟨w, b, s', rfl, hb⟩ := h
  exact ⟨w, b, s' ++ s, by rw [List.append_assoc, List.cons_append], hb⟩

/-- A numeral begins with a minus sign or a digit. -/
theorem Numeral.bytes_eq_cons (ℓ : Numeral) :
    ∃ b s, ℓ.bytes = b :: s ∧ (b = Byte.minus ∨ Byte.isDigit b = true) := by
  obtain ⟨d, ds, hds⟩ := List.exists_cons_of_ne_nil ℓ.isWhole.some
  rw [bytes]
  split
  · exact ⟨Byte.minus, ℓ.unsigned, rfl, .inl rfl⟩
  · refine ⟨d, ds ++ ℓ.tail, ?_, .inr (ℓ.isWhole.all d (hds ▸ List.mem_cons_self))⟩
    rw [unsigned, hds, List.cons_append]

theorem Written.led (h : Written t) : Led t := by
  induction h with
  | blank hb _ ih => exact ih.blank hb
  | null => exact led_cons (by decide) (by decide) (by decide)
  | wordTrue => exact led_cons (by decide) (by decide) (by decide)
  | wordFalse => exact led_cons (by decide) (by decide) (by decide)
  | numeral ℓ =>
    obtain ⟨b, s, hb, hfirst⟩ := ℓ.bytes_eq_cons
    rw [hb]
    exact led_cons (isSpace_of_number hfirst) (ne_of_number hfirst (by decide)) (ne_of_number hfirst (by decide))
  | string ps => exact led_cons (by decide) (by decide) (by decide)
  | list gap _ _ => exact led_cons (by decide) (by decide) (by decide)
  | object gap _ _ => exact led_cons (by decide) (by decide) (by decide)

theorem Written.blanks (h : Written t) (w : Blanks) : Written (w.bytes ++ t) := by
  obtain ⟨bs, hbs⟩ := w
  induction bs with
  | nil => exact h
  | cons b bs ih =>
    obtain ⟨hb, hbs⟩ := List.forall_mem_cons.mp hbs
    exact .blank hb (ih hbs)

/-! ## Values without parts -/

section
variable {levels : Nat}

theorem takes_value_word {b : UInt8} {bs : Bytes} {v : Json} (hspace : Byte.isSpace b = false)
    (hlist : b ≠ Byte.openList) (hobject : b ≠ Byte.openObject) (hscalar : scalar b = (do advance; word bs; pure v)) :
    Takes (value levels) (b :: bs) (some v) := by
  intro r _
  rw [List.cons_append, value_eq_scalar hspace hlist hobject, hscalar]
  refine .reads ((bind_of_ok (x := advance) rfl).trans ?_)
  exact bind_of_ok (word_append bs r)

theorem value_numeral (ℓ : Numeral) (r : Bytes) :
    value levels (ℓ.bytes ++ r) = (Json.number <$> numeral) (ℓ.bytes ++ r) := by
  obtain ⟨b, s, hb, hfirst⟩ := ℓ.bytes_eq_cons
  rw [hb, List.cons_append]
  exact (value_eq_scalar (isSpace_of_number hfirst) (ne_of_number hfirst (by decide))
    (ne_of_number hfirst (by decide))).trans (scalar_number hfirst _)

theorem settled_numeral (ℓ : Numeral) : Settled numeral ℓ.bytes := by
  by_cases hcount : ℓ.IsCount
  · exact (ℓ.takes_numeral_of_isCount hcount).settled
  · obtain ⟨o, ho, -⟩ := ℓ.takes_numeral_of_not_isCount hcount
    exact ho.settled

theorem takes_value_numeral (levels : Nat) (ℓ : Numeral) :
    Takes (value levels) ℓ.bytes ((alone numeral ℓ.bytes).map Json.number) := by
  intro r hr
  rw [value_numeral]
  exact (settled_numeral ℓ r hr).map

theorem takes_value_string (ps : List Piece) :
    Takes (value levels) (Byte.quoteMark :: enclosed ps) ((spelled ps).map Json.string) := by
  intro r _
  rw [List.cons_append, value_eq_scalar (by decide) (by decide) (by decide)]
  exact (quotedString_enclosed ps r).map

end

/-! ## Lists -/

section
variable {α : Type}

/-- Before an item, its separator and its blanks are taken; the reader of the item need not see them. -/
theorem moreItems_inside {x y : Reader α} (hx : Blind x) (ht : Led t) (ts : List Bytes) (r : Bytes) :
    (moreItems first >>= fun more => if more then x else y) (inside first (t :: ts) ++ r) =
      x (t ++ (inside false ts ++ r)) := by
  obtain ⟨w, b, s, rfl, hspace, hclose, -⟩ := ht
  have hmore : moreItems first (inside first ((w.bytes ++ b :: s) :: ts) ++ r) =
      .ok (true, b :: (s ++ (inside false ts ++ r))) := by
    cases first with
    | true =>
      rw [inside, List.append_assoc, List.append_assoc, List.cons_append, (blind_moreItems true).blanks w]
      exact moreItems_first hspace hclose
    | false =>
      rw [inside, List.cons_append, List.append_assoc, List.append_assoc, List.cons_append]
      refine (bind_of_ok (token_cons (by decide))).trans ?_
      refine (bind_of_ok (x := advance) (a := ()) rfl).trans ?_
      refine (bind_of_ok (token_blanks w hspace _)).trans ?_
      simp only [if_neg hclose]
      rfl
  rw [bind_of_ok hmore, if_pos rfl, List.append_assoc, hx.blanks w, List.cons_append]

theorem moreItems_gap (gap : Blanks) (r : Bytes) :
    moreItems first (gap.bytes ++ Byte.closeList :: r) = .ok (false, Byte.closeList :: r) :=
  ((blind_moreItems first).blanks gap _).trans moreItems_close

theorem blind_items (item : Reader α) (fuel : Nat) (first : Bool) (done : List α) :
    Blind (items item (fuel + 1) first done) := (blind_moreItems first).bind _

/-- Items are read one by one, up to the closing bracket or the first that is at fault. -/
theorem items_inside {item : Reader α} (hblind : Blind item) {is : List Item} (hled : ∀ i ∈ is, Led i.value)
    (hitem : ∀ i ∈ is, Settled item i.value) (gap : Blanks) (fuel : Nat) (hfuel : is.length < fuel) (first : Bool)
    (w : Blanks) (done : List α) (r : Bytes) :
    Yields (items item fuel first done
        (w.bytes ++ (inside first (is.map Item.bytes) ++ (gap.bytes ++ Byte.closeList :: r)))) r
      ((is.mapM fun i => alone item i.value).map fun as => done.reverse ++ as) := by
  obtain ⟨fuel, rfl⟩ := Nat.exists_eq_succ_of_ne_zero (Nat.ne_of_gt (Nat.zero_lt_of_lt hfuel))
  induction is generalizing fuel first w done with
  | nil =>
    rw [List.map_nil, inside_nil, List.nil_append, List.mapM_nil, Option.pure_def, Option.map_some, List.append_nil]
    refine .reads (((blind_items item fuel first done).blanks w _).trans ?_)
    exact (bind_of_ok (moreItems_gap gap r)).trans (bind_of_ok endOfList_close)
  | cons i is ih =>
    have hpos : 0 < fuel := Nat.zero_lt_of_lt (Nat.lt_of_succ_lt_succ hfuel)
    obtain ⟨fuel, rfl⟩ := Nat.exists_eq_succ_of_ne_zero (Nat.ne_of_gt hpos)
    have hends : Ends (i.after.bytes ++ (inside false (is.map Item.bytes) ++ (gap.bytes ++ Byte.closeList :: r))) :=
      ends_blanks _ (ends_inside (ends_blanks gap (ends_cons (by decide))) _)
    have hnext : items item (fuel + 1 + 1) first done
        (w.bytes ++ (inside first (i.bytes :: is.map Item.bytes) ++ (gap.bytes ++ Byte.closeList :: r))) =
        (item >>= fun a => items item (fuel + 1) false (a :: done))
          (i.value ++ (i.after.bytes ++ (inside false (is.map Item.bytes) ++ (gap.bytes ++ Byte.closeList :: r)))) := by
      rw [← List.append_assoc i.value]
      refine ((blind_items item (fuel + 1) first done).blanks w _).trans ?_
      exact moreItems_inside (hblind.bind _) ((hled i List.mem_cons_self).append _) _ _
    have hrest := fun a => ih (fun j hj => hled j (List.mem_cons_of_mem _ hj))
      (fun j hj => hitem j (List.mem_cons_of_mem _ hj)) false i.after (a :: done) fuel (Nat.lt_of_succ_lt_succ hfuel)
    have hlist := (hitem i List.mem_cons_self _ hends).bind fun a _ => hrest a
    rw [List.map_cons, hnext, List.mapM_cons]
    cases ha : alone item i.value with
    | none =>
      rw [ha] at hlist
      exact hlist
    | some a =>
      rw [ha, Option.bind_some] at hlist
      cases has : is.mapM fun j => alone item j.value with
      | none =>
        rw [has] at hlist
        exact hlist
      | some as =>
        rw [has, Option.map_some, List.reverse_cons, List.append_assoc] at hlist
        exact hlist

/-! ## Objects -/

theorem nextName_gap (gap : Blanks) (r : Bytes) :
    nextName first (gap.bytes ++ Byte.closeObject :: r) = .ok (none, Byte.closeObject :: r) :=
  ((blind_token.bind _).blanks gap _).trans nextName_close

theorem colon_blanks (w : Blanks) (r : Bytes) : colon (w.bytes ++ Byte.colon :: r) = .ok ((), r) :=
  ((blind_token.bind _).blanks w _).trans colon_cons

theorem blind_members (member : String → α → Reader α) (fuel : Nat) (first : Bool) (a : α) :
    Blind (members member (fuel + 1) first a) := (blind_token.bind _).bind _

/-- The name of the next member is what its pieces spell. -/
theorem nextName_inside (first : Bool) (e : Entry) (ts : List Bytes) (r : Bytes) :
    Yields (nextName first (inside first (e.bytes :: ts) ++ r))
      (e.mid.bytes ++ Byte.colon :: (e.value ++ (e.after.bytes ++ (inside false ts ++ r))))
      ((spelled e.name).map some) := by
  have hname := (quotedString_enclosed e.name
    (e.mid.bytes ++ Byte.colon :: (e.value ++ (e.after.bytes ++ (inside false ts ++ r))))).map (g := some)
  have hbytes : e.bytes ++ (inside false ts ++ r) = e.before.bytes ++ Byte.quoteMark :: (enclosed e.name ++
      (e.mid.bytes ++ Byte.colon :: (e.value ++ (e.after.bytes ++ (inside false ts ++ r))))) := by
    simp only [Entry.bytes, List.append_assoc, List.cons_append]
  cases first with
  | true =>
    have hnext : nextName true (inside true (e.bytes :: ts) ++ r) = (some <$> quotedString)
        (enclosed e.name ++ (e.mid.bytes ++ Byte.colon :: (e.value ++ (e.after.bytes ++ (inside false ts ++ r))))) := by
      rw [inside, List.append_assoc, hbytes]
      exact (bind_of_ok (token_blanks e.before (by decide) _)).trans (bind_of_ok (x := advance) rfl)
    rw [hnext]
    exact hname
  | false =>
    have hnext : nextName false (inside false (e.bytes :: ts) ++ r) = (some <$> quotedString)
        (enclosed e.name ++ (e.mid.bytes ++ Byte.colon :: (e.value ++ (e.after.bytes ++ (inside false ts ++ r))))) := by
      rw [inside, List.cons_append, List.append_assoc, hbytes]
      refine (bind_of_ok (token_cons (by decide))).trans ?_
      refine (bind_of_ok (x := advance) (a := ()) rfl).trans ?_
      exact (bind_of_ok (token_blanks e.before (by decide) _)).trans (bind_of_ok (x := advance) rfl)
    rw [hnext]
    exact hname

/-- Members are read one by one, up to the closing brace or the first that is at fault. -/
theorem members_inside {member : String → α → Reader α} (put : String → α → Entry → Option α) {es : List Entry}
    (hmember : ∀ e ∈ es, ∀ name a r, spelled e.name = some name → Ends r →
      Yields (member name a (e.mid.bytes ++ Byte.colon :: (e.value ++ r))) r (put name a e))
    (gap : Blanks) (fuel : Nat) (hfuel : es.length < fuel) (first : Bool) (w : Blanks) (a : α) (r : Bytes) :
    Yields (members member fuel first a
        (w.bytes ++ (inside first (es.map Entry.bytes) ++ (gap.bytes ++ Byte.closeObject :: r)))) r
      (es.foldlM (fun a e => (spelled e.name).bind fun name => put name a e) a) := by
  obtain ⟨fuel, rfl⟩ := Nat.exists_eq_succ_of_ne_zero (Nat.ne_of_gt (Nat.zero_lt_of_lt hfuel))
  induction es generalizing fuel first w a with
  | nil =>
    rw [List.map_nil, inside_nil, List.nil_append]
    refine .reads (((blind_members member fuel first a).blanks w _).trans ?_)
    exact (bind_of_ok (nextName_gap gap r)).trans (bind_of_ok endOfObject_close)
  | cons e es ih =>
    have hpos : 0 < fuel := Nat.zero_lt_of_lt (Nat.lt_of_succ_lt_succ hfuel)
    obtain ⟨fuel, rfl⟩ := Nat.exists_eq_succ_of_ne_zero (Nat.ne_of_gt hpos)
    have hends : Ends (e.after.bytes ++ (inside false (es.map Entry.bytes) ++ (gap.bytes ++ Byte.closeObject :: r))) :=
      ends_blanks _ (ends_inside (ends_blanks gap (ends_cons (by decide))) _)
    have hrest := fun a => ih (fun f hf => hmember f (List.mem_cons_of_mem _ hf)) false e.after a fuel
      (Nat.lt_of_succ_lt_succ hfuel)
    rw [List.map_cons, List.foldlM_cons, Option.bind_eq_bind, Option.bind_assoc]
    rw [(blind_members member (fuel + 1) first a).blanks w]
    have hname := nextName_inside first e (es.map Entry.bytes) (gap.bytes ++ Byte.closeObject :: r)
    cases hspelled : spelled e.name with
    | none =>
      rw [hspelled] at hname
      cases hname with
      | fails h => exact .fails (bind_of_error h)
    | some name =>
      rw [hspelled] at hname
      have hnext : members member (fuel + 1 + 1) first a
          (inside first (e.bytes :: es.map Entry.bytes) ++ (gap.bytes ++ Byte.closeObject :: r)) =
          (member name a >>= fun a => members member (fuel + 1) false a) _ := bind_of_ok hname.eq
      rw [Option.bind_some]
      exact hnext ▸ (hmember e List.mem_cons_self name a _ hspelled hends).bind fun a _ => hrest a

/-! ## Values -/

theorem listBytes_append (is : List Item) (gap : Blanks) (r : Bytes) :
    listBytes is gap ++ r =
      Byte.openList :: (inside true (is.map Item.bytes) ++ (gap.bytes ++ Byte.closeList :: r)) := by
  simp only [listBytes, List.cons_append, List.append_assoc, List.nil_append]

theorem objectBytes_append (es : List Entry) (gap : Blanks) (r : Bytes) :
    objectBytes es gap ++ r =
      Byte.openObject :: (inside true (es.map Entry.bytes) ++ (gap.bytes ++ Byte.closeObject :: r)) := by
  simp only [objectBytes, List.cons_append, List.append_assoc, List.nil_append]

theorem length_lt_bytes {ι : Type} (f : ι → Bytes) (is : List ι) (w : Bytes) (b : UInt8) (r : Bytes) :
    is.length < (inside true (is.map f) ++ (w ++ b :: r)).length + 1 := by
  have hle := length_le_inside (is.map f)
  rw [List.length_map] at hle
  rw [List.length_append, List.length_append, List.length_cons]
  omega

section
variable {levels : Nat}

/-- A list is read as the list of what its items are read as. -/
theorem takes_value_list {is : List Item} (hled : ∀ i ∈ is, Led i.value)
    (hitem : ∀ i ∈ is, Settled (value levels) i.value) (gap : Blanks) :
    Takes (value (levels + 1)) (listBytes is gap) ((is.mapM fun i => alone (value levels) i.value).map Json.array) := by
  intro r _
  have hread := items_inside (blind_value levels) hled hitem gap
    _ (length_lt_bytes Item.bytes is gap.bytes Byte.closeList r) true Blanks.none [] r
  have hnext : value (levels + 1) (listBytes is gap ++ r) = (Json.array <$> items (value levels)
      ((inside true (is.map Item.bytes) ++ (gap.bytes ++ Byte.closeList :: r)).length + 1) true [])
      (inside true (is.map Item.bytes) ++ (gap.bytes ++ Byte.closeList :: r)) := by
    rw [listBytes_append]
    refine (bind_of_ok (token_cons (by decide))).trans ?_
    exact (bind_of_ok (x := advance) (a := ()) rfl).trans (bind_of_ok (x := bound) rfl)
  have hall : (is.mapM fun i => alone (value levels) i.value).map (fun vs => [].reverse ++ vs) =
      is.mapM fun i => alone (value levels) i.value := Option.map_id' ..
  rw [hnext]
  exact (hall ▸ hread).map

/-- One member of an object: its value goes under its name into the table. -/
def member (levels : Nat) (name : String) (done : NameTable Json) : Reader (NameTable Json) := do
  colon
  let v ← value levels
  pure (NameTable.insert name v done)

/-- The table after a member as it is written; nothing if its name or its value is at fault. -/
def insert? (levels : Nat) (done : NameTable Json) (e : Entry) : Option (NameTable Json) :=
  (spelled e.name).bind fun name => (alone (value levels) e.value).map fun v => NameTable.insert name v done

/-- An object is read as the table into which its members are put one by one. -/
theorem takes_value_object {es : List Entry} (hentry : ∀ e ∈ es, Settled (value levels) e.value) (gap : Blanks) :
    Takes (value (levels + 1)) (objectBytes es gap) ((es.foldlM (insert? levels) []).map Json.object) := by
  have hmember : ∀ e ∈ es, ∀ name done r, spelled e.name = some name → Ends r →
      Yields (member levels name done (e.mid.bytes ++ Byte.colon :: (e.value ++ r))) r
        ((alone (value levels) e.value).map fun v => NameTable.insert name v done) := by
    intro e he name done r _ hr
    rw [member, bind_of_ok (colon_blanks e.mid _), Option.map_eq_bind]
    exact (hentry e he r hr).bind fun v _ => .reads rfl
  intro r _
  have hread := members_inside _ hmember gap
    _ (length_lt_bytes Entry.bytes es gap.bytes Byte.closeObject r) true Blanks.none [] r
  have hnext : value (levels + 1) (objectBytes es gap ++ r) = (Json.object <$> members (member levels)
      ((inside true (es.map Entry.bytes) ++ (gap.bytes ++ Byte.closeObject :: r)).length + 1) true [])
      (inside true (es.map Entry.bytes) ++ (gap.bytes ++ Byte.closeObject :: r)) := by
    rw [objectBytes_append]
    refine (bind_of_ok (token_cons (by decide))).trans ?_
    exact (bind_of_ok (x := advance) (a := ()) rfl).trans (bind_of_ok (x := bound) rfl)
  rw [hnext]
  exact hread.map

end

/-- What reading makes of the text of a value does not depend on what follows. -/
theorem Written.settled_value (h : Written t) (levels : Nat) : Settled (value levels) t := by
  induction h generalizing levels with
  | blank hb _ ih => exact ((ih levels).blank (blind_value levels) hb).settled
  | null => exact (takes_value_word (by decide) (by decide) (by decide) rfl).settled
  | wordTrue => exact (takes_value_word (by decide) (by decide) (by decide) rfl).settled
  | wordFalse => exact (takes_value_word (by decide) (by decide) (by decide) rfl).settled
  | numeral ℓ => exact (takes_value_numeral _ ℓ).settled
  | string ps => exact (takes_value_string ps).settled
  | list gap h ih =>
    cases levels with
    | zero => exact Takes.settled (o := none) fun r _ => .fails (bind_of_ok (token_cons (by decide)))
    | succ levels => exact (takes_value_list (fun i hi => (h i hi).led) (fun i hi => ih i hi levels) gap).settled
  | object gap h ih =>
    cases levels with
    | zero => exact Takes.settled (o := none) fun r _ => .fails (bind_of_ok (token_cons (by decide)))
    | succ levels => exact (takes_value_object (fun e he => ih e he levels) gap).settled

end

end FrameStream.Json
