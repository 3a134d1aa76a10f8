import FrameStream.Binary64.Basic

/-!
# The shortest decimal of a binary value

Among all decimals that round back to a value, `shortest` picks one with the fewest digits, and of those
the nearest. It walks the decimal grids of 1, 2, … 17 digits and tests on each the two neighbours of the
value, in exact arithmetic.
-/

namespace FrameStream.Binary64

/-- A positive decimal `0.d₁d₂…dₙ * 10 ^ point`; `digits` is `d₁d₂…dₙ` read as a number. -/
structure Decimal where
  digits : Nat
  point : Int
  deriving DecidableEq, Repr, Inhabited

/-- A positive finite value and the interval of reals that round to it, over one denominator. -/
structure Interval where
  low : Nat
  value : Nat
  high : Nat
  den : Nat
  closed : Bool

/-- The reals that round to `m * 2 ^ e`. The gap below is half as wide at a power of two. -/
def interval (m : Nat) (e : Int) : Interval :=
  let down := if m = twoTo 52 ∧ minExponent < e then 1 else 2
  let f := e - 2
  let (k, den) := if 0 ≤ f then (twoTo f.toNat, 1) else (1, twoTo (-f).toNat)
  { low := (4 * m - down) * k, value := 4 * m * k, high := (4 * m + 2) * k, den, closed := m % 2 = 0 }

/-- Whether `d * 10 ^ g` lies in the interval. -/
def Interval.holds (i : Interval) (d : Nat) (g : Int) : Bool :=
  let (x, s) := if 0 ≤ g then (d * tenTo g.toNat * i.den, 1) else (d * i.den, tenTo (-g).toNat)
  if i.closed then i.low * s ≤ x && x ≤ i.high * s else i.low * s < x && x < i.high * s

/-- The least `p` with `num / den < 10 ^ p`, searched upwards from `p`, `fuel` steps at most. -/
def pointFrom (num den : Nat) : Nat → Int → Int
  | 0, p => p
  | fuel + 1, p =>
    let below := if 0 ≤ p then num < tenTo p.toNat * den else num * tenTo (-p).toNat < den
    if below then p else pointFrom num den fuel (p + 1)

/-- A lower bound for the decimal point, from the binary logarithm. -/
def pointGuess (num den : Nat) : Int :=
  (log2Ratio num den) * 30103 / 100000 - 1

/-- The hit on the grid of `n` digits, the nearer of two, a tie to the even digit. -/
def hitOnGrid (i : Interval) (point : Int) (n : Nat) : Option Nat :=
  let g := point - n
  let (x, s) := if 0 ≤ g then (i.value, i.den * tenTo g.toNat) else (i.value * tenTo (-g).toNat, i.den)
  let d := x / s
  let r := x % s
  match i.holds d g, i.holds (d + 1) g with
  | true, true => if 2 * r < s ∨ (2 * r = s ∧ d % 2 = 0) then some d else some (d + 1)
  | true, false => some d
  | false, true => some (d + 1)
  | false, false => none

/-- The first grid with a hit, from `n` digits on; seventeen digits always suffice. -/
def firstHit (i : Interval) (point : Int) : Nat → Nat → Nat × Nat
  | 0, n => (i.value * tenTo (n - point).toNat / i.den, n)
  | fuel + 1, n =>
    match hitOnGrid i point n with
    | some d => (d, n)
    | none => firstHit i point fuel (n + 1)

def dropZeros : Nat → Nat → Nat
  | 0, d => d
  | fuel + 1, d => if d % 10 = 0 ∧ d ≠ 0 then dropZeros fuel (d / 10) else d

/-- The shortest decimal that rounds back to `m * 2 ^ e`, for positive `m`. -/
def shortest (m : Nat) (e : Int) : Decimal :=
  let i := interval m e
  let point := pointFrom i.value i.den 8 (pointGuess i.value i.den)
  let (d, n) := firstHit i point 17 1
  { digits := dropZeros 20 d, point := if d = tenTo n then point + 1 else point }

end FrameStream.Binary64
