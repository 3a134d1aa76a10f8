import FrameStream.Unicode.Casing

/-!
# Lower case

`lowercase` maps every character by itself, but for two rules: the capital I with a dot becomes two
characters, and a capital sigma at the end of a word becomes the final small sigma.
-/

namespace FrameStream.Unicode

/-- The lower-case code point by the first run that holds `n`, or `n` itself. -/
def lowerIn : List LowerRun → Nat → Nat
  | [], n => n
  | r :: rest, n =>
    if n < r.first then n
    else if n ≤ r.last ∧ (n - r.first) % r.step = 0 then ((n : Int) + r.shift).toNat
    else lowerIn rest n

/-- The capital I with a dot above. -/
def dottedCapitalI : Char := '\u0130'

/-- The lower-case form of one character, wherever it stands. -/
def lowerChar (c : Char) : List Char :=
  if c.toNat < 0x80 then [if 'A' ≤ c ∧ c ≤ 'Z' then Char.ofNat (c.toNat + 32) else c]
  else if c = dottedCapitalI then ['i', '\u0307']
  else [Char.ofNat (lowerIn lowerRuns c.toNat)]

def isCased (c : Char) : Bool := cased.has c.toNat

def isCaseIgnorable (c : Char) : Bool := caseIgnorable.has c.toNat

/-- Whether the first character that counts for case has one. -/
def casedAhead (cs : List Char) : Bool :=
  match cs.dropWhile isCaseIgnorable with
  | c :: _ => isCased c
  | [] => false

def capitalSigma : Char := '\u03A3'

/-- A capital sigma between `before` (nearest character first) and `after`: the final form ends a word. -/
def lowerSigma (before after : List Char) : Char :=
  if casedAhead before && !casedAhead after then '\u03C2' else '\u03C3'

/-- The lower-case form of `cs`, which stands after `before` (nearest character first). -/
def lowerAfter (before : List Char) : List Char → List Char
  | [] => []
  | c :: cs =>
    if c = capitalSigma then lowerSigma before cs :: lowerAfter (c :: before) cs
    else lowerChar c ++ lowerAfter (c :: before) cs

def lowercase (s : String) : String := String.ofList (lowerAfter [] s.toList)

end FrameStream.Unicode
