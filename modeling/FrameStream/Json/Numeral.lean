import FrameStream.Binary64.Basic
import FrameStream.Json.Reader

/-!
# Numerals

Digits alone, up to 64 bits, stay a whole number. Everything else becomes a binary value in two roundings:
the digits that fit 64 bits are taken as one significand, and that is multiplied or divided by a power of
ten. So a numeral of many digits need not become the nearest value; a whole number is never rounded.
-/

namespace FrameStream.Json

/-- Digits taken into `n` as long as the result fits 64 bits; the rest stays. -/
def absorb (n : Nat) : Bytes → Nat × Bytes
  | [] => (n, [])
  | b :: r =>
    if Byte.isDigit b ∧ n * 10 + Byte.digit b ≤ maxWhole then absorb (n * 10 + Byte.digit b) r
    else (n, b :: r)

/-- The largest exponent that is read digit by digit. -/
def maxExponent : Nat := twoTo 31 - 1

/-- Digits taken into the exponent `e`; nothing once it has passed the largest. -/
def absorbExponent (e : Nat) : Bytes → Option Nat × Bytes
  | [] => (some e, [])
  | b :: r =>
    if Byte.isDigit b then
      if maxExponent < e * 10 + Byte.digit b then (none, r) else absorbExponent (e * 10 + Byte.digit b) r
    else (some e, b :: r)

/-- The largest power of ten that is used as a factor. -/
def maxFactor : Nat := 308

/-- `x / 10 ^ k`, in steps of at most the largest factor. -/
def scaleDown (x : Binary64) (k : Nat) : Binary64 :=
  if k ≤ maxFactor then x.div (.powTen k)
  else if x.isZero then x
  else scaleDown (x.div (.powTen maxFactor)) (k - maxFactor)
termination_by k
decreasing_by simp only [maxFactor] at *; omega

/-- `x * 10 ^ k`, unless that is out of range. -/
def scaleUp? (x : Binary64) (k : Nat) : Option Binary64 :=
  if k ≤ maxFactor then
    let y := x.mul (.powTen k)
    if y.isInfinite then none else some y
  else if x.isZero then some x
  else none

/-- The value of `significand * 10 ^ exponent` with its sign. -/
def scaled? (negative : Bool) (significand : Nat) (exponent : Int) : Option Binary64 :=
  let x := Binary64.ofNat significand
  let y := match exponent with
    | .ofNat k => scaleUp? x k
    | .negSucc k => some (scaleDown x (k + 1))
  y.map fun y => if negative then y.neg else y

/-- The value of a numeral that has a fraction, an exponent or too many digits. -/
def scaledNumber (negative : Bool) (significand : Nat) (exponent : Int) : Reader Number :=
  match scaled? negative significand exponent with
  | some x => pure (.real x)
  | none => fault .numberOutOfRange

/-- The rest of a numeral from its exponent letter on. -/
def exponentPart (negative : Bool) (significand : Nat) (exponent : Int) : Reader Number := do
  advance
  let sign ← look
  if sign = some Byte.minus ∨ sign = some Byte.plus then advance
  match ← take with
  | none => fault .endInValue
  | some b =>
    if Byte.isDigit b then
      match ← (fun s => .ok (absorbExponent (Byte.digit b) s)) with
      | some e => scaledNumber negative significand (if sign = some Byte.minus then exponent - e else exponent + e)
      | none =>
        if significand ≠ 0 ∧ sign ≠ some Byte.minus then fault .numberOutOfRange
        else
          let _ ← takeDigits
          pure (.real (.zero negative))
    else fault .invalidNumber

/-- The rest of a numeral after its last digit before or after the point. -/
def exponentOrEnd (negative : Bool) (significand : Nat) (exponent : Int) : Reader Number := do
  match ← look with
  | some b =>
    if Byte.isExponent b then exponentPart negative significand exponent
    else scaledNumber negative significand exponent
  | none => scaledNumber negative significand exponent

/-- The rest of a numeral from its point on. -/
def fractionPart (negative : Bool) (significand : Nat) (exponent : Int) : Reader Number := do
  advance
  let before ← get
  let significand ← (fun s => .ok (absorb significand s))
  let after ← get
  let ignored ← takeDigits
  let taken := before.length - after.length
  if taken = 0 ∧ ignored.isEmpty then
    match ← look with
    | none => faultAhead .endInValue
    | some _ => faultAhead .invalidNumber
  else exponentOrEnd negative significand (exponent - taken)

/-- A numeral of digits alone. Minus zero is no whole number, nor is one of more than 64 bits. -/
def wholeNumber (negative : Bool) (n : Nat) : Number :=
  if negative then
    if n = 0 ∨ twoTo 63 < n then .real (Binary64.ofNat n).neg else .whole (-n)
  else .whole n

/-- The rest of a numeral after the digits of its whole part, which all fit 64 bits. -/
def afterWhole (negative : Bool) (n : Nat) : Reader Number := do
  match ← look with
  | some b =>
    if b = Byte.point then fractionPart negative n 0
    else if Byte.isExponent b then exponentPart negative n 0
    else pure (wholeNumber negative n)
  | none => pure (wholeNumber negative n)

/-- The rest of a numeral after `more` digits that no longer fit; they only count for the exponent. -/
def afterLong (negative : Bool) (n : Nat) (more : Nat) : Reader Number := do
  match ← look with
  | some b =>
    if b = Byte.point then fractionPart negative n more else exponentOrEnd negative n more
  | none => scaledNumber negative n more

def unsignedNumber (negative : Bool) : Reader Number := do
  match ← take with
  | none => fault .endInValue
  | some b =>
    if b = 0x30 then
      match ← look with
      | some c => if Byte.isDigit c then faultAhead .invalidNumber else afterWhole negative 0
      | none => afterWhole negative 0
    else if Byte.isDigit b then
      let n ← (fun s => .ok (absorb (Byte.digit b) s))
      let more ← takeDigits
      if more.isEmpty then afterWhole negative n else afterLong negative n more.length
    else fault .invalidNumber

/-- A numeral; the next byte is a sign or a digit. -/
def numeral : Reader Number := do
  if (← look) = some Byte.minus then
    advance
    unsignedNumber true
  else unsignedNumber false

end FrameStream.Json
