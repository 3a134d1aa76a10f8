import FrameStream.Proofs.Json.Scanning

/-!
# Strings as they are written

Between its quotes a string is written in pieces: bytes that stand for themselves and escapes (`Piece`). What the pieces
spell decides what reading makes of them, wherever they stand: two surrogates in a row join, and one alone is a fault.
Whoever only runs over the string gets past any pieces.
-/

namespace FrameStream.Json

/-- The byte stands for itself in a quoted string. -/
def Byte.isPlain (b : UInt8) : Bool := b != Byte.quoteMark && b != Byte.backslash && decide (0x20 ≤ b)

/-- A byte that stands for itself, an escape of one letter, or the code of a character. -/
inductive Piece where
  | plain (b : UInt8) (h : Byte.isPlain b = true)
  | escape (b c : UInt8) (h : simpleEscape? b = some c)
  | code (a b c d : UInt8) (n : Nat) (h : Byte.hex4? a b c d = some n)

def Piece.bytes : Piece → Bytes
  | .plain b _ => [b]
  | .escape b _ _ => [Byte.backslash, b]
  | .code a b c d _ _ => [Byte.backslash, Byte.letterU, a, b, c, d]

/-- The bytes that pieces spell after those in `acc`, which holds the last one first. -/
def spelledAfter (acc : Bytes) : List Piece → Option Bytes
  | [] => some acc.reverse
  | .plain b _ :: ps => spelledAfter (b :: acc) ps
  | .escape _ c _ :: ps => spelledAfter (c :: acc) ps
  | .code _ _ _ _ n _ :: ps =>
    if isTrailing n then none
    else if isLeading n then
      match ps with
      | .code _ _ _ _ m _ :: ps =>
        if isTrailing m then spelledAfter ((utf8 (joinSurrogates n m)).reverse ++ acc) ps else none
      | _ => none
    else spelledAfter ((utf8 n).reverse ++ acc) ps

/-- The text that pieces spell, if they spell one. -/
def spelled (ps : List Piece) : Option String := (spelledAfter [] ps).bind Bytes.text?

/-- Pieces and the closing quote. -/
def enclosed (ps : List Piece) : Bytes := ps.flatMap Piece.bytes ++ [Byte.quoteMark]

theorem enclosed_cons (p : Piece) (ps : List Piece) : enclosed (p :: ps) = p.bytes ++ enclosed ps := by
  rw [enclosed, List.flatMap_cons, List.append_assoc, enclosed]

/-! ## Reading -/

section

variable {a b c d e f g h : UInt8} {n m : Nat} {acc : Bytes}

theorem unquote_plain (hb : Byte.isPlain b = true) (acc r : Bytes) : unquote acc (b :: r) = unquote (b :: acc) r := by
  simp only [Byte.isPlain, Bool.and_eq_true, bne_iff_ne, ne_eq, decide_eq_true_eq] at hb
  obtain ⟨⟨hquote, hback⟩, hlow⟩ := hb
  have hstep := unquote.eq_6 acc b r (fun _ _ _ _ _ h => (hback h).elim) (fun _ h => (hback h).elim)
    (fun _ _ h => (hback h).elim) fun h => (hback h).elim
  rw [hstep, if_neg hquote, if_neg (UInt8.not_lt.mpr hlow)]

theorem unquote_quoteMark (acc r : Bytes) : unquote acc (Byte.quoteMark :: r) = .ok (acc.reverse, r) :=
  unquote.eq_6 acc Byte.quoteMark r (fun _ _ _ _ _ h => absurd h (by decide)) (fun _ h => absurd h (by decide))
    (fun _ _ h => absurd h (by decide)) fun h => absurd h (by decide)

theorem unquote_simple (h : simpleEscape? b = some c) (acc r : Bytes) :
    unquote acc (Byte.backslash :: b :: r) = unquote (c :: acc) r := by
  have hu : b ≠ Byte.letterU := by
    intro hb
    rw [hb] at h
    cases h
  have hstep := unquote.eq_4 acc b r (fun _ _ _ _ _ hb _ => hu hb) hu
  rw [h] at hstep
  exact hstep

/-- What follows a leading surrogate decides what becomes of it; `acc` holds what was read before it, last first. -/
def unquoteSecond (acc : Bytes) (n : Nat) : Bytes → Except Fault (Bytes × Bytes)
  | Byte.backslash :: Byte.letterU :: e :: f :: g :: h :: r =>
    match Byte.hex4? e f g h with
    | none => faultAt .invalidEscape r.length
    | some m =>
      if isTrailing m then unquote ((utf8 (joinSurrogates n m)).reverse ++ acc) r
      else faultAt .loneSurrogate r.length
  | Byte.backslash :: Byte.letterU :: _ => faultAt .endInString 0
  | Byte.backslash :: _ :: r => faultAt .unfinishedSurrogate r.length
  | [Byte.backslash] => faultAt .endInString 0
  | _ :: r => faultAt .unfinishedSurrogate r.length
  | [] => faultAt .endInString 0

/-- A code of no surrogate stands for its character. -/
theorem unquote_code (h : Byte.hex4? a b c d = some n) (acc r : Bytes) :
    unquote acc (Byte.backslash :: Byte.letterU :: a :: b :: c :: d :: r) =
      if isTrailing n then faultAt .loneSurrogate r.length
      else if isLeading n then unquoteSecond acc n r
      else unquote ((utf8 n).reverse ++ acc) r := by
  refine (unquote.eq_2 acc a b c d r).trans ?_
  simp only [h]
  rfl

/-- Two surrogates in a row stand for one character, if the second is a trailing one. -/
theorem unquoteSecond_code (hm : Byte.hex4? e f g h = some m) (acc : Bytes) (n : Nat) (r : Bytes) :
    unquoteSecond acc n (Byte.backslash :: Byte.letterU :: e :: f :: g :: h :: r) =
      if isTrailing m then unquote ((utf8 (joinSurrogates n m)).reverse ++ acc) r
      else faultAt .loneSurrogate r.length := by
  refine (unquoteSecond.eq_1 acc n e f g h r).trans ?_
  simp only [hm]

/-- A leading surrogate that no other code follows is a fault. -/
theorem unquoteSecond_fails (acc : Bytes) (n : Nat) {ps : List Piece}
    (hps : ∀ a b c d m h ps', ps = .code a b c d m h :: ps' → False) (r : Bytes) :
    ∃ x, unquoteSecond acc n (enclosed ps ++ r) = .error x := by
  cases ps with
  | nil => exact ⟨_, rfl⟩
  | cons p ps =>
    cases p with
    | plain b' hb =>
      have hback : b' ≠ Byte.backslash := by
        rintro rfl
        cases hb
      rw [enclosed_cons, Piece.bytes, List.singleton_append, List.cons_append]
      unfold unquoteSecond
      split
      all_goals first | exact ⟨_, rfl⟩ | exact absurd (List.cons.inj ‹_›).1 hback
    | escape b' c' hb =>
      have hu : b' ≠ Byte.letterU := by
        rintro rfl
        cases hb
      rw [enclosed_cons, Piece.bytes, List.cons_append, List.singleton_append, List.cons_append, List.cons_append]
      unfold unquoteSecond
      split
      all_goals first | exact ⟨_, rfl⟩ | exact absurd (List.cons.inj (List.cons.inj ‹_›).2).1 hu
    | code a b c d m h => exact (hps a b c d m h ps rfl).elim

end

theorem unquote_enclosed (acc : Bytes) (ps : List Piece) (r : Bytes) :
    Yields (unquote acc (enclosed ps ++ r)) r (spelledAfter acc ps) := by
  fun_induction spelledAfter acc ps with
  | case1 acc => exact .reads (unquote_quoteMark acc r)
  | case2 acc b hb ps ih =>
    rw [enclosed_cons]
    exact (unquote_plain hb acc _).symm ▸ ih
  | case3 acc b c hb ps ih =>
    rw [enclosed_cons]
    exact (unquote_simple hb acc _).symm ▸ ih
  | case4 acc a b c d n hn ps htrailing =>
    rw [enclosed_cons]
    refine (unquote_code hn acc _).symm ▸ ?_
    rw [if_pos htrailing]
    exact .fails rfl
  | case5 acc a b c d n hn htrailing hleading e f g h m hm ps hpair ih =>
    rw [enclosed_cons, enclosed_cons]
    refine (unquote_code hn acc _).symm ▸ ?_
    rw [if_neg htrailing, if_pos hleading]
    refine (unquoteSecond_code hm acc n _).symm ▸ ?_
    rw [if_pos hpair]
    exact ih
  | case6 acc a b c d n hn htrailing hleading e f g h m hm ps hpair =>
    rw [enclosed_cons, enclosed_cons]
    refine (unquote_code hn acc _).symm ▸ ?_
    rw [if_neg htrailing, if_pos hleading]
    refine (unquoteSecond_code hm acc n _).symm ▸ ?_
    rw [if_neg hpair]
    exact .fails rfl
  | case7 acc a b c d n hn ps htrailing hleading hps =>
    obtain ⟨x, hx⟩ := unquoteSecond_fails acc n hps r
    rw [enclosed_cons]
    refine (unquote_code hn acc _).symm ▸ ?_
    rw [if_neg htrailing, if_pos hleading]
    exact .fails hx
  | case8 acc a b c d n hn ps htrailing hleading ih =>
    rw [enclosed_cons]
    refine (unquote_code hn acc _).symm ▸ ?_
    rw [if_neg htrailing, if_neg hleading]
    exact ih

/-- A quoted string reads as the text that its pieces spell. -/
theorem quotedString_enclosed (ps : List Piece) (r : Bytes) :
    Yields (quotedString (enclosed ps ++ r)) r (spelled ps) := by
  have hread := unquote_enclosed [] ps r
  unfold quotedString spelled
  cases hbytes : spelledAfter [] ps with
  | none =>
    rw [hbytes] at hread
    cases hread with
    | fails h =>
      rw [h]
      exact .fails rfl
  | some bytes =>
    rw [hbytes] at hread
    rw [hread.eq]
    simp only [Option.bind_some]
    cases Bytes.text? bytes with
    | none => exact .fails rfl
    | some t => exact .reads rfl

/-! ## Running over -/

theorem skipQuoted_code {a b c d : UInt8} {n : Nat} (h : Byte.hex4? a b c d = some n) (r : Bytes) :
    skipQuoted (Byte.backslash :: Byte.letterU :: a :: b :: c :: d :: r) = skipQuoted r := by
  refine (skipQuoted.eq_2 a b c d r).trans ?_
  simp [h]

theorem skipQuoted_plain {b : UInt8} (hb : Byte.isPlain b = true) (r : Bytes) : skipQuoted (b :: r) = skipQuoted r := by
  simp only [Byte.isPlain, Bool.and_eq_true, bne_iff_ne, ne_eq, decide_eq_true_eq] at hb
  obtain ⟨⟨hquote, hback⟩, hlow⟩ := hb
  have hstep := skipQuoted.eq_6 b r (fun _ _ _ _ _ h => (hback h).elim) (fun _ h => (hback h).elim)
    (fun _ _ h => (hback h).elim) fun h => (hback h).elim
  rw [hstep, if_neg hquote, if_neg (UInt8.not_lt.mpr hlow)]

theorem skipQuoted_simple {b c : UInt8} (h : simpleEscape? b = some c) (r : Bytes) :
    skipQuoted (Byte.backslash :: b :: r) = skipQuoted r := by
  have hu : b ≠ Byte.letterU := by
    rintro rfl
    cases h
  have hstep := skipQuoted.eq_4 b r (fun _ _ _ _ _ hb _ => hu hb) hu
  rw [h] at hstep
  exact hstep

theorem skipString_enclosed (ps : List Piece) (r : Bytes) : skipString (enclosed ps ++ r) = .ok ((), r) := by
  induction ps with
  | nil => rfl
  | cons p ps ih =>
    rw [enclosed_cons, List.append_assoc]
    cases p with
    | plain b hb => exact (skipQuoted_plain hb _).trans ih
    | escape b c hb => exact (skipQuoted_simple hb _).trans ih
    | code a b c d n hn => exact (skipQuoted_code hn _).trans ih

/-! ## Strings that are written in the usual way -/

/-- Bytes that stand for themselves, one piece each. -/
def plainly (bs : Bytes) (h : bs.all Byte.isPlain = true) : List Piece :=
  bs.pmap Piece.plain (List.all_eq_true.mp h)

theorem bytes_plainly {bs : Bytes} (h : bs.all Byte.isPlain = true) : (plainly bs h).flatMap Piece.bytes = bs := by
  have hall : ∀ (bs : Bytes) (h : ∀ b ∈ bs, Byte.isPlain b = true),
      (bs.pmap Piece.plain h).flatMap Piece.bytes = bs := by
    intro bs
    induction bs with
    | nil => exact fun _ => rfl
    | cons b bs ih => exact fun h => congrArg (b :: ·) (ih fun c hc => h c (List.mem_cons_of_mem _ hc))
  exact hall bs _

end FrameStream.Json
