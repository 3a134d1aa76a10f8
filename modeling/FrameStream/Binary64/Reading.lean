import FrameStream.Binary64.Basic
import FrameStream.Bytes

/-!
# Decimal numerals read as binary values

`ofNumeral?` reads a whole text as a number: an optional sign, then digits with an optional point and an
optional exponent, or one of the words for infinity and not-a-number. The result is the value nearest to
the decimal, whatever its length.
-/

namespace FrameStream.Binary64

def isDigit (c : Char) : Bool := '0' ≤ c && c ≤ '9'

/-- A string of digits read as a number. -/
def digitsValue (ds : List Char) : Nat :=
  ds.foldl (fun n c => n * 10 + (c.toNat - '0'.toNat)) 0

/-- The decimal exponent beyond which every numeral is out of range, whatever its digits. -/
def farExponent (digits : Nat) : Int := 400 + digits

/-- The value nearest to `mantissa * 10 ^ exponent`; `digits` bounds the digits of the mantissa. -/
def ofDecimal (negative : Bool) (mantissa digits : Nat) (exponent : Int) : Binary64 :=
  if mantissa = 0 then zero negative
  else if farExponent digits < exponent then .infinite negative
  else if exponent < -farExponent digits then zero negative
  else if 0 ≤ exponent then ofRatio negative (mantissa * tenTo exponent.toNat) 1
  else ofRatio negative mantissa (tenTo (-exponent).toNat)

def readSign : List Char → Bool × List Char
  | '-' :: r => (true, r)
  | '+' :: r => (false, r)
  | r => (false, r)

/-- The exponent after the digits: nothing, or `e` with an optional sign and at least one digit. -/
def readExponent? : List Char → Option Int
  | [] => some 0
  | c :: r =>
    if c == 'e' || c == 'E' then
      let (negative, ds) := readSign r
      if ds.isEmpty || !ds.all isDigit then none
      else some (if negative then -(digitsValue ds : Int) else digitsValue ds)
    else none

/-- Digits with an optional point, at least one digit in all, then an optional exponent. -/
def readDecimal? (negative : Bool) (cs : List Char) : Option Binary64 :=
  let whole := cs.takeWhile isDigit
  let rest := cs.dropWhile isDigit
  let (fraction, rest) :=
    match rest with
    | '.' :: r => (r.takeWhile isDigit, r.dropWhile isDigit)
    | r => ([], r)
  let digits := whole ++ fraction
  if digits.isEmpty then none
  else (readExponent? rest).map fun e =>
    ofDecimal negative (digitsValue digits) digits.length (e - fraction.length)

/-- The words for values that are no decimals, in lower case. -/
def ofWord? (negative : Bool) (word : String) : Option Binary64 :=
  if word = "inf" ∨ word = "infinity" then some (.infinite negative)
  else if word = "nan" then some .nan
  else none

/-- The value a whole text spells, if it spells one. -/
def ofNumeral? (s : String) : Option Binary64 :=
  let (negative, cs) := readSign s.toList
  match ofWord? negative (String.ofList (cs.map Char.toLower)) with
  | some x => some x
  | none => readDecimal? negative cs

end FrameStream.Binary64
