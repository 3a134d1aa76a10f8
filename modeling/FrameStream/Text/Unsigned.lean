/-!
# Unsigned numerals

A whole text is read as decimal digits, with an optional plus sign. The digits are judged from left to
right, so the first that is none, or that takes the value past the largest, decides what is wrong.
-/

namespace FrameStream.Text.Unsigned

inductive NumeralError where
  | blank
  | badDigit
  | tooLarge
  deriving DecidableEq, Repr

def NumeralError.message : NumeralError → String
  | .blank => "cannot parse integer from empty string"
  | .badDigit => "invalid digit found in string"
  | .tooLarge => "number too large to fit in target type"

/-- Digits read into `n`, at most `max`. -/
def digits (max n : Nat) : List Char → Except NumeralError Nat
  | [] => .ok n
  | c :: cs =>
    if '0' ≤ c ∧ c ≤ '9' then
      let m := n * 10 + (c.toNat - '0'.toNat)
      if max < m then .error .tooLarge else digits max m cs
    else .error .badDigit

/-- The number a text spells, at most `max`. -/
def read (max : Nat) (s : String) : Except NumeralError Nat :=
  match s.toList with
  | [] => .error .blank
  | ['+'] => .error .badDigit
  | '+' :: cs => digits max 0 cs
  | cs => digits max 0 cs

end FrameStream.Text.Unsigned
