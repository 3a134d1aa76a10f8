import FrameStream.Json.Parse

/-!
# What the steps of a reader take

Reading goes on step by step: where one step takes the front of a text, the next one sees the rest. Words and separators
take exactly their own bytes, whatever comes after them; a number needs to be told apart from what follows, which is
what `Ends` says. The first byte of a value tells which way to read it.
-/

namespace FrameStream.Json

section
variable {α β : Type} {x : Reader α} {f : α → Reader β} {g : α → β} {s r : Bytes} {a : α}

theorem bind_of_ok (h : x s = .ok (a, r)) : (x >>= f) s = f a r := by
  show (x s >>= fun p => f p.1 p.2) = f a r
  rw [h]
  rfl

theorem map_of_ok (h : x s = .ok (a, r)) : (g <$> x) s = .ok (g a, r) := by
  show (x s >>= fun p => pure (g p.1, p.2)) = .ok (g a, r)
  rw [h]
  rfl

theorem bind_of_error {e : Fault} (h : x s = .error e) : (x >>= f) s = .error e := by
  show (x s >>= fun p => f p.1 p.2) = .error e
  rw [h]
  rfl

/-- The outcome of reading is what `o` says, with `r` left; or it is a fault, where `o` is nothing. -/
inductive Yields (x : Except Fault (α × Bytes)) (r : Bytes) : Option α → Prop
  | reads {a : α} (h : x = .ok (a, r)) : Yields x r (some a)
  | fails {e : Fault} (h : x = .error e) : Yields x r none

variable {o : Option α} {r' : Bytes}

theorem Yields.bind {k : α → Option β} (hx : Yields (x s) r o)
    (hf : ∀ a, o = some a → Yields (f a r) r' (k a)) : Yields ((x >>= f) s) r' (o.bind k) := by
  cases hx with
  | reads h =>
    rw [bind_of_ok h]
    exact hf _ rfl
  | fails h => exact .fails (bind_of_error h)

theorem Yields.map (hx : Yields (x s) r o) : Yields ((g <$> x) s) r (o.map g) := by
  cases hx with
  | reads h => exact .reads (map_of_ok h)
  | fails h =>
    refine .fails (e := ‹Fault›) ?_
    show (x s >>= fun p => pure (g p.1, p.2)) = _
    rw [h]
    rfl

theorem Yields.eq {a : α} {y : Except Fault (α × Bytes)} (h : Yields y r (some a)) : y = .ok (a, r) := by
  cases h with
  | reads h => exact h

/-- A whole text was read, and nothing is left. -/
theorem readAll_of_ok (h : x s = .ok (a, [])) : readAll x s = .ok a := by
  have hall : (x <* endOfText) s = .ok (a, []) := (bind_of_ok h).trans rfl
  rw [readAll, hall]

theorem readAll_of_error {e : Fault} (h : x s = .error e) : readAll x s = .error e := by
  have hall : (x <* endOfText) s = .error e := bind_of_error h
  rw [readAll, hall]

end

variable {b c : UInt8} {r s : Bytes} {first : Bool} {levels : Nat}

theorem token_cons (h : Byte.isSpace b = false) : token (b :: r) = .ok (some b, b :: r) := by
  have hdrop : (b :: r).dropWhile Byte.isSpace = b :: r := by
    rw [List.dropWhile_cons, h]
    rfl
  simp only [token, hdrop, List.head?_cons]

theorem word_append (bs r : Bytes) : word bs (bs ++ r) = .ok ((), r) := by
  induction bs with
  | nil => rfl
  | cons b bs ih =>
    refine (bind_of_ok (x := take) rfl).trans ?_
    show (if b = b then word bs else fault .expectedWord) (bs ++ r) = .ok ((), r)
    rw [if_pos rfl]
    exact ih

/-- The text goes on with nothing that could belong to a number. -/
def Ends (r : Bytes) : Prop :=
  ∀ b ∈ r.head?, Byte.isDigit b = false ∧ b ≠ Byte.point ∧ Byte.isExponent b = false

theorem ends_nil : Ends [] := fun _ h => nomatch h

theorem ends_cons (h : Byte.isDigit b = false ∧ b ≠ Byte.point ∧ Byte.isExponent b = false) : Ends (b :: r) := by
  intro c hc
  obtain rfl : b = c := by simpa using hc
  exact h

/-- Wherever a text stands, `x` takes just the text and makes `o` of it, or finds a fault where `o` is nothing. -/
def Takes {α : Type} (x : Reader α) (t : Bytes) (o : Option α) : Prop := ∀ r, Ends r → Yields (x (t ++ r)) r o

/-! ## First bytes -/

theorem ne_of_number (h : b = Byte.minus ∨ Byte.isDigit b = true) (hc : ¬ (c = Byte.minus ∨ Byte.isDigit c = true)) :
    b ≠ c :=
  fun heq => hc (heq ▸ h)

theorem isSpace_of_number (h : b = Byte.minus ∨ Byte.isDigit b = true) : Byte.isSpace b = false := by
  simp only [Byte.isSpace, Bool.or_eq_false_iff, beq_eq_false_iff_ne]
  exact ⟨⟨⟨ne_of_number h (by decide), ne_of_number h (by decide)⟩, ne_of_number h (by decide)⟩,
    ne_of_number h (by decide)⟩

theorem value_eq_scalar (hspace : Byte.isSpace b = false) (hlist : b ≠ Byte.openList) (hobject : b ≠ Byte.openObject) :
    value levels (b :: s) = scalar b (b :: s) := by
  cases levels with
  | zero =>
    refine (bind_of_ok (token_cons hspace)).trans ?_
    show (if b = Byte.openList ∨ b = Byte.openObject then faultAhead .tooDeep else scalar b) (b :: s) = _
    rw [if_neg fun h => h.elim hlist hobject]
  | succ levels =>
    refine (bind_of_ok (token_cons hspace)).trans ?_
    simp only [if_neg hlist, if_neg hobject]

theorem scalar_number (h : b = Byte.minus ∨ Byte.isDigit b = true) (s : Bytes) :
    scalar b s = (Json.number <$> numeral) s := by
  rw [scalar, if_neg (ne_of_number h (by decide)), if_neg (ne_of_number h (by decide)),
    if_neg (ne_of_number h (by decide)), if_neg (ne_of_number h (by decide)), if_pos h]

/-! ## Separators -/

theorem moreItems_first (hspace : Byte.isSpace b = false) (hclose : b ≠ Byte.closeList) :
    moreItems true (b :: r) = .ok (true, b :: r) := by
  refine (bind_of_ok (token_cons hspace)).trans ?_
  simp only [if_neg hclose]
  rfl

theorem moreItems_close : moreItems first (Byte.closeList :: r) = .ok (false, Byte.closeList :: r) :=
  (bind_of_ok (token_cons (by decide))).trans rfl

theorem endOfList_close : endOfList (Byte.closeList :: r) = .ok ((), r) :=
  (bind_of_ok (token_cons (by decide))).trans rfl

theorem nextName_close : nextName first (Byte.closeObject :: r) = .ok (none, Byte.closeObject :: r) :=
  (bind_of_ok (token_cons (by decide))).trans rfl

theorem endOfObject_close : endOfObject (Byte.closeObject :: r) = .ok ((), r) :=
  (bind_of_ok (token_cons (by decide))).trans rfl

theorem colon_cons : colon (Byte.colon :: r) = .ok ((), r) :=
  (bind_of_ok (token_cons (by decide))).trans rfl

end FrameStream.Json
