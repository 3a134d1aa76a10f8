import Mathlib.Algebra.Group.Nat.Defs
import FrameStream.Proofs.Json.Quoting

/-!
# Numerals as they are written

A numeral is a sign, digits, a fraction and an exponent, of any length (`Numeral`). The reader takes the whole of it,
whatever follows. Digits alone that fit 64 bits are read as the number they stand for; every other numeral is out of
range, or a binary number, or a whole number below zero.
-/

namespace FrameStream.Json

/-- One or more digits. -/
structure Digits (ds : Bytes) : Prop where
  some : ds ≠ []
  all : ∀ b ∈ ds, Byte.isDigit b = true

/-- The number that digits stand for when they come after `n`. -/
def digitsAfter (n : Nat) (ds : Bytes) : Nat := ds.foldl (fun n b => n * 10 + Byte.digit b) n

/-- An exponent as it is written. -/
structure Exponent where
  letter : UInt8
  sign : Option UInt8
  digits : Bytes
  isLetter : Byte.isExponent letter = true
  isSign : ∀ b ∈ sign, b = Byte.minus ∨ b = Byte.plus
  isDigits : Digits digits

def Exponent.bytes (e : Exponent) : Bytes := e.letter :: (e.sign.toList ++ e.digits)

/-- A numeral as it is written. -/
structure Numeral where
  negative : Bool
  whole : Bytes
  fraction : Option Bytes
  exponent : Option Exponent
  isWhole : Digits whole
  /-- A zero comes first only where it stands alone. -/
  leading : whole.head? = some 0x30 → whole = [0x30]
  isFraction : ∀ f ∈ fraction, Digits f

namespace Numeral

/-- What is written from the exponent on. -/
def exponentBytes (n : Numeral) : Bytes := n.exponent.elim [] Exponent.bytes

/-- What is written from the point on. -/
def tail (n : Numeral) : Bytes := n.fraction.elim [] (Byte.point :: ·) ++ n.exponentBytes

def unsigned (n : Numeral) : Bytes := n.whole ++ n.tail

def bytes (n : Numeral) : Bytes := if n.negative then Byte.minus :: n.unsigned else n.unsigned

/-- The number that the digits before the point stand for. -/
def value (n : Numeral) : Nat := digitsAfter 0 n.whole

/-- Digits alone, and no more than 64 bits. -/
structure IsCount (n : Numeral) : Prop where
  positive : n.negative = false
  noFraction : n.fraction = none
  noExponent : n.exponent = none
  small : n.value < 2 ^ 64

end Numeral

/-! ## Digits -/

/-- The text does not go on with a digit. -/
def NoDigit (r : Bytes) : Prop := ∀ b ∈ r.head?, Byte.isDigit b = false

variable {r ds : Bytes} {b : UInt8} {n : Nat}

theorem Ends.noDigit (h : Ends r) : NoDigit r := fun b hb => (h b hb).1

theorem noDigit_cons (h : Byte.isDigit b = false) : NoDigit (b :: r) := by
  intro c hc
  obtain rfl : b = c := by simpa using hc
  exact h

theorem le_maxWhole_iff (n : Nat) : n ≤ maxWhole ↔ n < 2 ^ 64 := by
  have hmax : maxWhole = 2 ^ 64 - 1 := by decide
  rw [hmax]
  omega

theorem digit_le (b : UInt8) : Byte.digit b ≤ maxWhole := by
  have hsmall : 255 ≤ maxWhole := by decide
  have := UInt8.toNat_lt b
  simp only [Byte.digit]
  omega

theorem le_digitsAfter (n : Nat) (ds : Bytes) : n ≤ digitsAfter n ds := by
  induction ds generalizing n with
  | nil => exact Nat.le_refl n
  | cons b ds ih =>
    have hstep : n ≤ n * 10 + Byte.digit b := by omega
    exact Nat.le_trans hstep (ih _)

/-- Digits are taken up to the first that no longer fits. -/
theorem absorb_append (hds : ∀ b ∈ ds, Byte.isDigit b = true) (n : Nat) :
    ∃ m left, (∀ r, NoDigit r → absorb n (ds ++ r) = (m, left ++ r)) ∧ (∀ b ∈ left, Byte.isDigit b = true) ∧
      left.length ≤ ds.length ∧ (digitsAfter n ds ≤ maxWhole → left = [] ∧ m = digitsAfter n ds) ∧
      (n ≤ maxWhole → maxWhole < digitsAfter n ds → left ≠ []) := by
  induction ds generalizing n with
  | nil =>
    refine ⟨n, [], fun r hr => ?_, hds, Nat.le_refl _, fun _ => ⟨rfl, rfl⟩, fun hle hlt => ?_⟩
    · cases r with
      | nil => rfl
      | cons b r =>
        rw [List.nil_append, absorb, if_neg fun h => ?_]
        rw [hr b rfl] at h
        exact absurd h.1 Bool.false_ne_true
    · exact absurd hle (Nat.not_le_of_lt hlt)
  | cons b ds ih =>
    obtain ⟨hb, hds⟩ := List.forall_mem_cons.mp hds
    by_cases hfits : n * 10 + Byte.digit b ≤ maxWhole
    · obtain ⟨m, left, habsorb, hleft, hlength, hall, hlong⟩ := ih hds (n * 10 + Byte.digit b)
      refine ⟨m, left, fun r hr => ?_, hleft, Nat.le_succ_of_le hlength, hall, fun _ => hlong hfits⟩
      rw [List.cons_append, absorb, if_pos ⟨hb, hfits⟩, habsorb r hr]
    · refine ⟨n, b :: ds, fun r _ => ?_, List.forall_mem_cons.mpr ⟨hb, hds⟩, Nat.le_refl _, fun h => ?_,
        fun _ _ => List.cons_ne_nil b ds⟩
      · rw [List.cons_append, absorb, if_neg fun h => hfits h.2]
      · exact absurd (Nat.le_trans (le_digitsAfter _ ds) h) hfits

theorem takeDigits_noDigit (hds : ∀ b ∈ ds, Byte.isDigit b = true) (hr : NoDigit r) :
    takeDigits (ds ++ r) = .ok (ds, r) := by
  have hrest : r.takeWhile Byte.isDigit = [] ∧ r.dropWhile Byte.isDigit = r := by
    cases r with
    | nil => exact ⟨rfl, rfl⟩
    | cons b r =>
      have hb : ¬ Byte.isDigit b = true := by
        rw [hr b rfl]
        exact Bool.false_ne_true
      exact ⟨List.takeWhile_cons_of_neg hb, List.dropWhile_cons_of_neg hb⟩
  rw [takeDigits, List.takeWhile_append_of_pos hds, List.dropWhile_append_of_pos hds, hrest.1, hrest.2, List.append_nil]

/-- The digits of an exponent are taken, unless they pass the largest exponent. -/
theorem absorbExponent_append (hds : ∀ b ∈ ds, Byte.isDigit b = true) (e : Nat) :
    ∃ o left, (∀ r, NoDigit r → absorbExponent e (ds ++ r) = (o, left ++ r)) ∧
      (∀ b ∈ left, Byte.isDigit b = true) ∧ (o.isSome → left = []) := by
  induction ds generalizing e with
  | nil =>
    refine ⟨some e, [], fun r hr => ?_, hds, fun _ => rfl⟩
    cases r with
    | nil => rfl
    | cons b r =>
      rw [List.nil_append, absorbExponent, hr b rfl]
      rfl
  | cons b ds ih =>
    obtain ⟨hb, hds⟩ := List.forall_mem_cons.mp hds
    by_cases hlarge : maxExponent < e * 10 + Byte.digit b
    · refine ⟨none, ds, fun r _ => ?_, hds, (nomatch ·)⟩
      rw [List.cons_append, absorbExponent, if_pos hb, if_pos hlarge]
    · obtain ⟨o, left, habsorb, hleft, hsome⟩ := ih hds (e * 10 + Byte.digit b)
      refine ⟨o, left, fun r hr => ?_, hleft, hsome⟩
      rw [List.cons_append, absorbExponent, if_pos hb, if_neg hlarge, habsorb r hr]

/-! ## Binary numbers -/

/-- The reader takes just the text and makes a binary number of it, or finds a fault. -/
def TakesReal (x : Reader Number) (t : Bytes) : Prop := ∃ o : Option Binary64, Takes x t (o.map .real)

theorem takesReal_scaledNumber (negative : Bool) (significand : Nat) (exponent : Int) :
    ∃ o : Option Binary64, ∀ r, Yields (scaledNumber negative significand exponent r) r (o.map .real) := by
  refine ⟨scaled? negative significand exponent, fun r => ?_⟩
  unfold scaledNumber
  cases scaled? negative significand exponent with
  | some x => exact .reads rfl
  | none => exact .fails rfl

/-- The digits of an exponent after its sign. -/
def exponentDigits (negative : Bool) (significand : Nat) (exponent : Int) (sign : Option UInt8) : Reader Number := do
  match ← take with
  | none => fault .endInValue
  | some b =>
    if Byte.isDigit b then
      match ← (fun s => .ok (absorbExponent (Byte.digit b) s)) with
      | some e => scaledNumber negative significand (if sign = some Byte.minus then exponent - e else exponent + e)
      | none =>
        if significand ≠ 0 ∧ sign ≠ some Byte.minus then fault .numberOutOfRange
        else
          let _ ← takeDigits
          pure (.real (.zero negative))
    else fault .invalidNumber

variable (negative : Bool) (significand : Nat) (exponent : Int)

theorem takesReal_exponentDigits (sign : Option UInt8) (hds : Digits ds) :
    TakesReal (exponentDigits negative significand exponent sign) ds := by
  obtain ⟨d, ds, rfl⟩ := List.exists_cons_of_ne_nil hds.some
  obtain ⟨hd, hds⟩ := List.forall_mem_cons.mp hds.all
  obtain ⟨o, left, habsorb, hleft, hsome⟩ := absorbExponent_append hds (Byte.digit d)
  have hnext : ∀ r, Ends r → exponentDigits negative significand exponent sign (d :: ds ++ r) =
      (match o with
        | some e => scaledNumber negative significand (if sign = some Byte.minus then exponent - e else exponent + e)
        | none =>
          if significand ≠ 0 ∧ sign ≠ some Byte.minus then fault .numberOutOfRange
          else do
            let _ ← takeDigits
            pure (.real (.zero negative))) (left ++ r) := by
    intro r hr
    refine (bind_of_ok (x := take) rfl).trans ?_
    simp only [List.cons_append, List.head?_cons, List.drop_succ_cons, List.drop_zero, if_pos hd]
    exact bind_of_ok (congrArg Except.ok (habsorb r hr.noDigit))
  cases o with
  | some e =>
    obtain ⟨x, hx⟩ := takesReal_scaledNumber negative significand
      (if sign = some Byte.minus then exponent - e else exponent + e)
    refine ⟨x, fun r hr => ?_⟩
    rw [hnext r hr, hsome rfl, List.nil_append]
    exact hx r
  | none =>
    by_cases hlarge : significand ≠ 0 ∧ sign ≠ some Byte.minus
    · refine ⟨none, fun r hr => ?_⟩
      rw [hnext r hr]
      simp only [if_pos hlarge]
      exact .fails rfl
    · refine ⟨some (.zero negative), fun r hr => ?_⟩
      rw [hnext r hr]
      simp only [if_neg hlarge]
      exact .reads (bind_of_ok (takeDigits_noDigit hleft hr.noDigit))

theorem exponentPart_cons (b : UInt8) (s : Bytes) :
    exponentPart negative significand exponent (b :: s) =
      exponentDigits negative significand exponent s.head?
        (if s.head? = some Byte.minus ∨ s.head? = some Byte.plus then s.drop 1 else s) := by
  refine (bind_of_ok (x := advance) rfl).trans ?_
  refine (bind_of_ok (x := look) rfl).trans ?_
  simp only [List.drop_succ_cons, List.drop_zero]
  split <;> rfl

theorem takesReal_exponentPart (e : Exponent) : TakesReal (exponentPart negative significand exponent) e.bytes := by
  obtain ⟨d, ds, hds⟩ := List.exists_cons_of_ne_nil e.isDigits.some
  have hd : Byte.isDigit d = true := e.isDigits.all d (hds ▸ List.mem_cons_self)
  obtain ⟨o, ho⟩ := takesReal_exponentDigits negative significand exponent (some (e.sign.getD d)) e.isDigits
  refine ⟨o, fun r hr => ?_⟩
  have hread := ho r hr
  rw [Exponent.bytes, List.cons_append, exponentPart_cons]
  cases hsign : e.sign with
  | none =>
    have hunsigned : ¬ (some d = some Byte.minus ∨ some d = some Byte.plus) := by
      rintro (h | h) <;> cases h <;> exact absurd hd (by decide)
    rw [hsign, hds] at hread
    rw [Option.toList_none, List.nil_append, hds, List.cons_append, List.head?_cons, if_neg hunsigned]
    exact hread
  | some c =>
    have hsigned : some c = some Byte.minus ∨ some c = some Byte.plus :=
      (e.isSign c hsign).imp (congrArg some) (congrArg some)
    rw [hsign] at hread
    rw [Option.toList_some, List.singleton_append, List.cons_append, List.head?_cons, if_pos hsigned]
    exact hread

/-! ## Fractions -/

/-- An exponent follows, or nothing. -/
theorem takesReal_exponentOrEnd (e : Option Exponent) :
    TakesReal (exponentOrEnd negative significand exponent) (e.elim [] Exponent.bytes) := by
  cases e with
  | none =>
    obtain ⟨o, ho⟩ := takesReal_scaledNumber negative significand exponent
    refine ⟨o, fun r hr => ?_⟩
    have hnext : exponentOrEnd negative significand exponent r = scaledNumber negative significand exponent r := by
      refine (bind_of_ok (x := look) rfl).trans ?_
      cases r with
      | nil => rfl
      | cons b r =>
        simp only [List.head?_cons, (hr b rfl).2.2, Bool.false_eq_true, if_false]
    rw [Option.elim_none, List.nil_append, hnext]
    exact ho r
  | some e =>
    obtain ⟨o, ho⟩ := takesReal_exponentPart negative significand exponent e
    refine ⟨o, fun r hr => ?_⟩
    have hnext : exponentOrEnd negative significand exponent (e.bytes ++ r) =
        exponentPart negative significand exponent (e.bytes ++ r) := by
      refine (bind_of_ok (x := look) rfl).trans ?_
      simp only [Exponent.bytes, List.cons_append, List.head?_cons, if_pos e.isLetter]
    rw [Option.elim_some, hnext]
    exact ho r hr

theorem noDigit_exponent (e : Option Exponent) (hr : Ends r) : NoDigit (e.elim [] Exponent.bytes ++ r) := by
  cases e with
  | none => exact hr.noDigit
  | some e =>
    refine noDigit_cons ?_
    have hletter := e.isLetter
    simp only [Byte.isExponent, Bool.or_eq_true, beq_iff_eq] at hletter
    rcases hletter with h | h <;> rw [h] <;> decide

theorem takesReal_fractionPart (hds : Digits ds) (e : Option Exponent) :
    TakesReal (fractionPart negative significand exponent) (Byte.point :: ds ++ e.elim [] Exponent.bytes) := by
  obtain ⟨n, left, habsorb, hleft, -, -, -⟩ := absorb_append hds.all significand
  obtain ⟨o, ho⟩ := takesReal_exponentOrEnd negative n (exponent - (ds.length - left.length : Nat)) e
  refine ⟨o, fun r hr => ?_⟩
  have hrest := noDigit_exponent e hr
  have htaken : (ds ++ (e.elim [] Exponent.bytes ++ r)).length - (left ++ (e.elim [] Exponent.bytes ++ r)).length =
      ds.length - left.length := by
    simp only [List.length_append, Nat.add_sub_add_right]
  have hany : ¬ (ds.length - left.length = 0 ∧ left.isEmpty = true) := by
    rintro ⟨hnone, hempty⟩
    rw [List.isEmpty_iff.mp hempty] at hnone
    exact hds.some (List.length_eq_zero_iff.mp hnone)
  have hnext : fractionPart negative significand exponent
      (Byte.point :: ds ++ e.elim [] Exponent.bytes ++ r) =
      exponentOrEnd negative n (exponent - (ds.length - left.length : Nat)) (e.elim [] Exponent.bytes ++ r) := by
    rw [List.cons_append, List.cons_append, List.append_assoc]
    refine (bind_of_ok (x := advance) (a := ()) rfl).trans ?_
    refine (bind_of_ok (x := get) rfl).trans ?_
    refine (bind_of_ok (congrArg Except.ok (habsorb _ hrest))).trans ?_
    refine (bind_of_ok (x := get) rfl).trans ?_
    refine (bind_of_ok (takeDigits_noDigit hleft hrest)).trans ?_
    simp only [List.drop_succ_cons, List.drop_zero, htaken, if_neg hany]
  rw [hnext]
  exact ho r hr

/-! ## Numerals -/

theorem afterWhole_ends (n : Nat) (h : Ends r) :
    afterWhole negative n r = .ok (wholeNumber negative n, r) := by
  refine (bind_of_ok (x := look) rfl).trans ?_
  cases r with
  | nil => rfl
  | cons b r =>
    obtain ⟨-, hpoint, hexponent⟩ := h b rfl
    show (if b = Byte.point then fractionPart negative n 0
      else if Byte.isExponent b then exponentPart negative n 0 else pure (wholeNumber negative n)) (b :: r) = _
    rw [if_neg hpoint, hexponent]
    rfl

namespace Numeral

variable (ℓ : Numeral) (n : Nat)

theorem noDigit_tail (hr : Ends r) : NoDigit (ℓ.tail ++ r) := by
  rw [tail, exponentBytes]
  cases ℓ.fraction with
  | none =>
    rw [Option.elim_none, List.nil_append]
    exact noDigit_exponent ℓ.exponent hr
  | some f => exact noDigit_cons (by decide)

/-- Digits alone are the number they stand for. -/
theorem takes_afterWhole (hfraction : ℓ.fraction = none) (hexponent : ℓ.exponent = none) :
    Takes (afterWhole negative n) ℓ.tail (some (wholeNumber negative n)) := by
  intro r hr
  rw [tail, exponentBytes, hfraction, hexponent]
  exact .reads (afterWhole_ends negative n hr)

theorem takesReal_afterWhole (h : ¬ (ℓ.fraction = none ∧ ℓ.exponent = none)) :
    TakesReal (afterWhole negative n) ℓ.tail := by
  rw [tail, exponentBytes]
  cases hfraction : ℓ.fraction with
  | some f =>
    obtain ⟨o, ho⟩ := takesReal_fractionPart negative n 0 (ℓ.isFraction f hfraction) ℓ.exponent
    refine ⟨o, fun r hr => ?_⟩
    have hnext : afterWhole negative n (Byte.point :: f ++ ℓ.exponent.elim [] Exponent.bytes ++ r) =
        fractionPart negative n 0 (Byte.point :: f ++ ℓ.exponent.elim [] Exponent.bytes ++ r) :=
      bind_of_ok (x := look) rfl
    rw [Option.elim_some, hnext]
    exact ho r hr
  | none =>
    cases hexponent : ℓ.exponent with
    | none => exact absurd ⟨hfraction, hexponent⟩ h
    | some e =>
      obtain ⟨o, ho⟩ := takesReal_exponentPart negative n 0 e
      refine ⟨o, fun r hr => ?_⟩
      have hpoint : e.letter ≠ Byte.point := fun heq => absurd (heq ▸ e.isLetter) (by decide)
      have hnext : afterWhole negative n (e.bytes ++ r) = exponentPart negative n 0 (e.bytes ++ r) := by
        refine (bind_of_ok (x := look) rfl).trans ?_
        simp only [Exponent.bytes, List.cons_append, List.head?_cons, if_neg hpoint, if_pos e.isLetter]
      rw [Option.elim_none, List.nil_append, Option.elim_some, hnext]
      exact ho r hr

theorem noPoint_exponent (e : Option Exponent) (hr : Ends r) :
    (e.elim [] Exponent.bytes ++ r).head? ≠ some Byte.point := by
  intro hhead
  cases e with
  | none => exact (hr _ hhead).2.1 rfl
  | some e =>
    obtain hletter : e.letter = Byte.point := Option.some.inj hhead
    exact absurd (hletter ▸ e.isLetter) (by decide)

theorem takesReal_afterLong (more : Nat) : TakesReal (afterLong negative n more) ℓ.tail := by
  rw [tail, exponentBytes]
  cases hfraction : ℓ.fraction with
  | some f =>
    obtain ⟨o, ho⟩ := takesReal_fractionPart negative n more (ℓ.isFraction f hfraction) ℓ.exponent
    refine ⟨o, fun r hr => ?_⟩
    have hnext : afterLong negative n more (Byte.point :: f ++ ℓ.exponent.elim [] Exponent.bytes ++ r) =
        fractionPart negative n more (Byte.point :: f ++ ℓ.exponent.elim [] Exponent.bytes ++ r) :=
      bind_of_ok (x := look) rfl
    rw [Option.elim_some, hnext]
    exact ho r hr
  | none =>
    obtain ⟨o, ho⟩ := takesReal_exponentOrEnd negative n more ℓ.exponent
    refine ⟨o, fun r hr => ?_⟩
    have hpoint := noPoint_exponent ℓ.exponent hr
    have hnext : afterLong negative n more (ℓ.exponent.elim [] Exponent.bytes ++ r) =
        exponentOrEnd negative n more (ℓ.exponent.elim [] Exponent.bytes ++ r) := by
      refine (bind_of_ok (x := look) rfl).trans ?_
      cases hs : ℓ.exponent.elim [] Exponent.bytes ++ r with
      | nil => rfl
      | cons b s =>
        rw [hs] at hpoint
        simp only [List.head?_cons, if_neg fun heq => hpoint (congrArg some heq)]
    rw [Option.elim_none, List.nil_append, hnext]
    exact ho r hr

theorem whole_of_zero {ds : Bytes} (hds : ℓ.whole = 0x30 :: ds) : ds = [] :=
  (List.cons.inj (hds.symm.trans (ℓ.leading (hds ▸ rfl)))).2

/-- Digits whose number fits 64 bits are read as that number; where it does not fit, what is left over only counts for
the exponent. -/
theorem unsignedNumber_append :
    (ℓ.value ≤ maxWhole → ∀ r, Ends r →
      unsignedNumber negative (ℓ.unsigned ++ r) = afterWhole negative ℓ.value (ℓ.tail ++ r)) ∧
    (maxWhole < ℓ.value → ∃ m more, ∀ r, Ends r →
      unsignedNumber negative (ℓ.unsigned ++ r) = afterLong negative m more (ℓ.tail ++ r)) := by
  obtain ⟨d, ds, hds⟩ := List.exists_cons_of_ne_nil ℓ.isWhole.some
  obtain ⟨hd, hdigits⟩ := List.forall_mem_cons.mp (hds ▸ ℓ.isWhole.all)
  have hvalue : ℓ.value = digitsAfter (Byte.digit d) ds := by
    rw [value, hds, digitsAfter, List.foldl_cons, Nat.zero_mul, Nat.zero_add, digitsAfter]
  by_cases hzero : d = 0x30
  · obtain rfl : ds = [] := ℓ.whole_of_zero (hzero ▸ hds)
    have hnumber : ℓ.value = 0 := by
      rw [hvalue, hzero]
      rfl
    refine ⟨fun _ r hr => ?_, fun hlong => absurd hlong (by rw [hnumber]; exact Nat.not_lt_zero _)⟩
    have hnone := ℓ.noDigit_tail hr
    rw [unsigned, hds, hnumber, hzero, List.cons_append, List.nil_append, List.cons_append]
    refine (bind_of_ok (x := take) rfl).trans ?_
    refine (bind_of_ok (x := look) rfl).trans ?_
    simp only [List.drop_succ_cons, List.drop_zero]
    cases hs : ℓ.tail ++ r with
    | nil => rfl
    | cons c s =>
      rw [hs] at hnone
      simp only [List.head?_cons, hnone c rfl, Bool.false_eq_true, if_false]
  · obtain ⟨m, left, habsorb, hleft, -, hall, hlong⟩ := absorb_append hdigits (Byte.digit d)
    have hnext : ∀ r, Ends r → unsignedNumber negative (ℓ.unsigned ++ r) =
        (if left.isEmpty then afterWhole negative m else afterLong negative m left.length) (ℓ.tail ++ r) := by
      intro r hr
      have hnone := ℓ.noDigit_tail hr
      rw [unsigned, hds, List.append_assoc, List.cons_append]
      refine (bind_of_ok (x := take) rfl).trans ?_
      simp only [List.head?_cons, List.drop_succ_cons, List.drop_zero, if_neg hzero, if_pos hd]
      refine (bind_of_ok (congrArg Except.ok (habsorb _ hnone))).trans ?_
      exact bind_of_ok (takeDigits_noDigit hleft hnone)
    refine ⟨fun hfits r hr => ?_, fun hpast => ⟨m, left.length, fun r hr => ?_⟩⟩
    · obtain ⟨hempty, hm⟩ := hall (hvalue ▸ hfits)
      rw [hnext r hr, hempty, hm, ← hvalue]
      rfl
    · have hmore : left ≠ [] := hlong (digit_le d) (hvalue ▸ hpast)
      rw [hnext r hr, if_neg fun hempty => hmore (List.isEmpty_iff.mp hempty)]

theorem numeral_append (r : Bytes) : numeral (ℓ.bytes ++ r) = unsignedNumber ℓ.negative (ℓ.unsigned ++ r) := by
  refine (bind_of_ok (x := look) rfl).trans ?_
  cases hsign : ℓ.negative with
  | true =>
    rw [bytes, hsign, if_pos rfl, List.cons_append, List.head?_cons, if_pos rfl]
    exact bind_of_ok (x := advance) rfl
  | false =>
    obtain ⟨d, ds, hds⟩ := List.exists_cons_of_ne_nil ℓ.isWhole.some
    have hd : Byte.isDigit d = true := ℓ.isWhole.all d (hds ▸ List.mem_cons_self)
    have hplain : d ≠ Byte.minus := fun heq => absurd (heq ▸ hd) (by decide)
    have hhead : (ℓ.unsigned ++ r).head? = some d := by
      rw [unsigned, hds]
      rfl
    rw [bytes, hsign, if_neg Bool.false_ne_true, hhead, if_neg fun heq => hplain (Option.some.inj heq)]

/-- Digits alone that fit 64 bits are read as the number they stand for. -/
theorem takes_numeral_of_isCount (h : ℓ.IsCount) : Takes numeral ℓ.bytes (some (.whole ℓ.value)) := by
  intro r hr
  have hfits : ℓ.value ≤ maxWhole := (le_maxWhole_iff _).mpr h.small
  rw [numeral_append, (ℓ.unsignedNumber_append ℓ.negative).1 hfits r hr, h.positive]
  exact ℓ.takes_afterWhole _ _ h.noFraction h.noExponent r hr

/-- Any other numeral is out of range, or no whole number, or a whole number below zero. -/
theorem takes_numeral_of_not_isCount (h : ¬ ℓ.IsCount) :
    ∃ o : Option Number, Takes numeral ℓ.bytes o ∧ ∀ x ∈ o, (Json.number x).natural? = none := by
  have hreal : ∀ o : Option Binary64, ∀ x ∈ o.map Number.real, (Json.number x).natural? = none := by
    intro o x hx
    obtain ⟨y, -, rfl⟩ := Option.map_eq_some_iff.mp hx
    rfl
  by_cases hfits : ℓ.value ≤ maxWhole
  · have hnext : ∀ r, Ends r → numeral (ℓ.bytes ++ r) = afterWhole ℓ.negative ℓ.value (ℓ.tail ++ r) := fun r hr =>
      (ℓ.numeral_append r).trans ((ℓ.unsignedNumber_append ℓ.negative).1 hfits r hr)
    by_cases hdigits : ℓ.fraction = none ∧ ℓ.exponent = none
    · have hnegative : ℓ.negative = true := by
        by_contra hpositive
        exact h ⟨Bool.not_eq_true _ ▸ hpositive, hdigits.1, hdigits.2, (le_maxWhole_iff _).mp hfits⟩
      refine ⟨some (wholeNumber ℓ.negative ℓ.value), fun r hr => ?_, fun x hx => ?_⟩
      · rw [hnext r hr]
        exact ℓ.takes_afterWhole _ _ hdigits.1 hdigits.2 r hr
      · obtain rfl : wholeNumber ℓ.negative ℓ.value = x := Option.some.inj hx
        rw [hnegative, wholeNumber, if_pos rfl]
        split
        · rfl
        · rename_i hsmall
          obtain ⟨k, hk⟩ := Nat.exists_eq_succ_of_ne_zero fun hzero => hsmall (.inl hzero)
          rw [hk]
          rfl
    · obtain ⟨o, ho⟩ := ℓ.takesReal_afterWhole ℓ.negative ℓ.value hdigits
      refine ⟨_, fun r hr => ?_, hreal o⟩
      rw [hnext r hr]
      exact ho r hr
  · obtain ⟨m, more, hlong⟩ := (ℓ.unsignedNumber_append ℓ.negative).2 (Nat.lt_of_not_le hfits)
    obtain ⟨o, ho⟩ := ℓ.takesReal_afterLong ℓ.negative m more
    refine ⟨_, fun r hr => ?_, hreal o⟩
    rw [numeral_append, hlong r hr]
    exact ho r hr

end Numeral

/-! ## Whole numbers -/

/-- The bytes of a number's decimal digits. -/
def digits (n : Nat) : Bytes := (Nat.toDigits 10 n).flatMap String.utf8EncodeChar

theorem ofText_toString (n : Nat) : Bytes.ofText (toString n) = digits n := by
  show Bytes.ofText n.repr = digits n
  rw [Nat.repr_eq_ofList_toDigits, Bytes.ofText_ofList, digits]

theorem digit_of_lt {k : Nat} (hk : k < 10) : ∃ b, String.utf8EncodeChar (Nat.digitChar k) = [b] ∧
    Byte.isDigit b = true ∧ Byte.digit b = k ∧ (0 < k → b ≠ 0x30) := by
  have hdigits : ∀ k < 10, (Nat.digitChar k).toNat < 0x80 ∧ Byte.isDigit (UInt8.ofNat (Nat.digitChar k).toNat) = true ∧
      Byte.digit (UInt8.ofNat (Nat.digitChar k).toNat) = k ∧
      (0 < k → UInt8.ofNat (Nat.digitChar k).toNat ≠ 0x30) := by decide
  obtain ⟨hlow, hrest⟩ := hdigits k hk
  exact ⟨_, utf8EncodeChar_low hlow, hrest⟩

theorem digits_of_lt {n : Nat} (h : n < 10) : digits n = String.utf8EncodeChar (Nat.digitChar n) := by
  rw [digits, Nat.toDigits_of_lt_base h, List.flatMap_singleton]

theorem digits_of_le {n : Nat} (h : 10 ≤ n) :
    digits n = digits (n / 10) ++ String.utf8EncodeChar (Nat.digitChar (n % 10)) := by
  rw [digits, Nat.toDigits_of_base_le (by decide) h, List.flatMap_append, List.flatMap_singleton, digits]

/-- A number begins with a digit, which is no zero unless the number is. -/
theorem digits_eq_cons (n : Nat) :
    ∃ b t, digits n = b :: t ∧ Byte.isDigit b = true ∧ (0 < n → b ≠ 0x30) := by
  induction n using Nat.strongRecOn with
  | ind n ih =>
    by_cases h : n < 10
    · obtain ⟨b, hb, hdigit, -, hzero⟩ := digit_of_lt h
      exact ⟨b, [], (digits_of_lt h).trans hb, hdigit, hzero⟩
    · have hle : 10 ≤ n := Nat.le_of_not_lt h
      obtain ⟨b, t, hb, hdigit, hzero⟩ := ih (n / 10) (by omega)
      refine ⟨b, t ++ String.utf8EncodeChar (Nat.digitChar (n % 10)), ?_, hdigit, fun _ => hzero (by omega)⟩
      rw [digits_of_le hle, hb, List.cons_append]

theorem isDigit_of_mem_digits (n : Nat) : ∀ b ∈ digits n, Byte.isDigit b = true := by
  induction n using Nat.strongRecOn with
  | ind n ih =>
    by_cases h : n < 10
    · obtain ⟨b, hb, hdigit, -, -⟩ := digit_of_lt h
      rw [digits_of_lt h, hb]
      exact List.forall_mem_singleton.mpr hdigit
    · obtain ⟨b, hb, hdigit, -, -⟩ := digit_of_lt (Nat.mod_lt n (y := 10) (by decide))
      rw [digits_of_le (Nat.le_of_not_lt h), hb]
      exact List.forall_mem_append.mpr ⟨ih (n / 10) (by omega), List.forall_mem_singleton.mpr hdigit⟩

/-- Digits stand for the number that they were written for. -/
theorem digitsAfter_digits (n : Nat) : digitsAfter 0 (digits n) = n := by
  induction n using Nat.strongRecOn with
  | ind n ih =>
    by_cases h : n < 10
    · obtain ⟨b, hb, -, hvalue, -⟩ := digit_of_lt h
      rw [digits_of_lt h, hb, digitsAfter, List.foldl_cons, hvalue, Nat.zero_mul, Nat.zero_add, List.foldl_nil]
    · obtain ⟨b, hb, -, hvalue, -⟩ := digit_of_lt (Nat.mod_lt n (y := 10) (by decide))
      have hfront := ih (n / 10) (by omega)
      rw [digitsAfter] at hfront
      rw [digits_of_le (Nat.le_of_not_lt h), hb, digitsAfter, List.foldl_append, hfront, List.foldl_cons, hvalue]
      exact Nat.div_add_mod' n 10

theorem isDigits_digits (n : Nat) : Digits (digits n) := by
  obtain ⟨b, t, hb, -⟩ := digits_eq_cons n
  exact ⟨hb ▸ List.cons_ne_nil b t, isDigit_of_mem_digits n⟩

theorem leading_digits (n : Nat) (hhead : (digits n).head? = some 0x30) : digits n = [0x30] := by
  obtain ⟨b, t, hb, -, hzero⟩ := digits_eq_cons n
  cases Nat.eq_zero_or_pos n with
  | inl hn =>
    rw [hn]
    decide
  | inr hpos =>
    rw [hb] at hhead
    exact absurd (Option.some.inj hhead) (hzero hpos)

/-- There is nothing to ask of a fraction that is not written. -/
theorem forall_mem_none_digits : ∀ f ∈ (none : Option Bytes), Digits f := fun _ h => nomatch h

/-- The numeral of a whole number. -/
def Numeral.ofWhole (i : Int) : Numeral where
  negative := decide (i < 0)
  whole := digits i.natAbs
  fraction := none
  exponent := none
  isWhole := isDigits_digits _
  leading := leading_digits _
  isFraction := forall_mem_none_digits

theorem ofText_whole (i : Int) : Bytes.ofText (Number.whole i).text = (Numeral.ofWhole i).bytes := by
  have hminus : Bytes.ofText "-" = [Byte.minus] := by decide
  by_cases hneg : i < 0
  · rw [Number.text, if_pos hneg, Bytes.ofText_append, hminus, ofText_toString]
    simp [Numeral.ofWhole, Numeral.bytes, Numeral.unsigned, Numeral.tail, Numeral.exponentBytes, hneg]
  · rw [Number.text, if_neg hneg, ofText_toString]
    simp [Numeral.ofWhole, Numeral.bytes, Numeral.unsigned, Numeral.tail, Numeral.exponentBytes, hneg]

/-- A whole number of 64 bits reads as itself. -/
theorem takes_numeral_ofWhole {i : Int} (hlow : -(twoTo 63 : Int) ≤ i) (hhigh : i ≤ maxWhole) :
    Takes numeral (Numeral.ofWhole i).bytes (some (.whole i)) := by
  have hvalue : (Numeral.ofWhole i).value = i.natAbs := digitsAfter_digits _
  have hfits : (Numeral.ofWhole i).value ≤ maxWhole := by
    have : (twoTo 63 : Int) ≤ maxWhole := by decide
    omega
  have hwhole : wholeNumber (decide (i < 0)) i.natAbs = .whole i := by
    by_cases hneg : i < 0
    · rw [wholeNumber, if_pos (decide_eq_true hneg), if_neg (by omega)]
      congr 1
      omega
    · rw [wholeNumber, if_neg fun h => hneg (of_decide_eq_true h)]
      congr 1
      omega
  intro r hr
  rw [Numeral.numeral_append, (Numeral.unsignedNumber_append _ _).1 hfits r hr, hvalue, ← hwhole]
  exact Numeral.takes_afterWhole _ _ _ rfl rfl r hr

end FrameStream.Json
