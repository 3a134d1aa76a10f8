import FrameStream.Binary64.Shortest
import FrameStream.Json.Value

/-!
# The text of a JSON value

The compact form: no blanks, members in the order in which the object holds them. A binary number is its
shortest decimal, written positionally for decimal points from -4 to 16 and with an exponent otherwise.
-/

namespace FrameStream

/-- Where the decimal form of a binary number changes from positional to scientific. -/
structure Json.RealFormat where
  /-- Decimal points above this are written with an exponent. -/
  mostPoint : Int
  /-- Decimal points below this are written with an exponent. -/
  leastPoint : Int

namespace Json

/-- Points from -4 to 16 are written positionally. -/
def realFormat : RealFormat := { mostPoint := 16, leastPoint := -4 }

def zeros (n : Nat) : String := String.ofList (List.replicate n '0')

/-- The text of the positive decimal `0.d₁d₂… * 10 ^ point`. -/
def decimalText (f : RealFormat) (d : Binary64.Decimal) : String :=
  let ds := (Nat.toDigits 10 d.digits)
  let n := ds.length
  if f.leastPoint ≤ d.point ∧ d.point ≤ f.mostPoint then
    if d.point ≤ 0 then "0." ++ zeros (-d.point).toNat ++ String.ofList ds
    else
      let p := d.point.toNat
      if n ≤ p then String.ofList ds ++ zeros (p - n) ++ ".0"
      else String.ofList (ds.take p) ++ "." ++ String.ofList (ds.drop p)
  else
    let e := d.point - 1
    let mantissa := String.ofList (ds.take 1) ++ (if n = 1 then "" else "." ++ String.ofList (ds.drop 1))
    mantissa ++ "e" ++ (if e < 0 then "-" else "+") ++ toString e.natAbs

/-- The text of a binary number. Values that are no numbers have the text of the null value. -/
def realText : Binary64 → String
  | .nan => "null"
  | .infinite _ => "null"
  | .finite s m e =>
    (if s then "-" else "") ++ if m = 0 then "0.0" else decimalText realFormat (Binary64.shortest m e)

def Number.text : Number → String
  | .whole i => if i < 0 then "-" ++ toString i.natAbs else toString i.natAbs
  | .real x => realText x

def hexDigit (n : Nat) : Char := Nat.digitChar (n % 16)

def escape (c : Char) : List Char :=
  if c = '"' then ['\\', '"']
  else if c = '\\' then ['\\', '\\']
  else if c = '\x08' then ['\\', 'b']
  else if c = '\x0c' then ['\\', 'f']
  else if c = '\n' then ['\\', 'n']
  else if c = '\r' then ['\\', 'r']
  else if c = '\t' then ['\\', 't']
  else if c.toNat < 0x20 then ['\\', 'u', '0', '0', hexDigit (c.toNat / 16), hexDigit c.toNat]
  else [c]

def quote (s : String) : String := "\"" ++ String.ofList (s.toList.flatMap escape) ++ "\""

def commas : List String → String
  | [] => ""
  | [t] => t
  | t :: ts => t ++ "," ++ commas ts

mutual
def text : Json → String
  | .null => "null"
  | .bool true => "true"
  | .bool false => "false"
  | .number n => n.text
  | .string s => quote s
  | .array items => "[" ++ commas (texts items) ++ "]"
  | .object ms => "\x7b" ++ commas (memberTexts ms) ++ "\x7d"

/-- The texts of the items of an array. -/
def texts : List Json → List String
  | [] => []
  | v :: vs => text v :: texts vs

/-- The texts of the members of an object. -/
def memberTexts : List (String × Json) → List String
  | [] => []
  | (n, v) :: ms => (quote n ++ ":" ++ text v) :: memberTexts ms
end

end Json
end FrameStream
