import FrameStream.Json.Fault

/-!
# Reading the pieces of a JSON text

A reader takes bytes off the front of a text or finds a fault. This module has the steps that every larger
reader is made of: blanks, words, quoted strings.
-/

namespace FrameStream.Json

/-- A reader takes bytes off the front of a text or finds a fault. -/
abbrev Reader (α : Type) := StateT Bytes (Except Fault) α

namespace Byte

@[match_pattern] abbrev quoteMark : UInt8 := 0x22
@[match_pattern] abbrev comma : UInt8 := 0x2C
@[match_pattern] abbrev minus : UInt8 := 0x2D
@[match_pattern] abbrev plus : UInt8 := 0x2B
@[match_pattern] abbrev point : UInt8 := 0x2E
@[match_pattern] abbrev colon : UInt8 := 0x3A
@[match_pattern] abbrev backslash : UInt8 := 0x5C
@[match_pattern] abbrev openList : UInt8 := 0x5B
@[match_pattern] abbrev closeList : UInt8 := 0x5D
@[match_pattern] abbrev openObject : UInt8 := 0x7B
@[match_pattern] abbrev closeObject : UInt8 := 0x7D
@[match_pattern] abbrev letterF : UInt8 := 0x66
@[match_pattern] abbrev letterN : UInt8 := 0x6E
@[match_pattern] abbrev letterT : UInt8 := 0x74
@[match_pattern] abbrev letterU : UInt8 := 0x75

def isSpace (b : UInt8) : Bool := b == 0x20 || b == 0x09 || b == 0x0A || b == 0x0D

def isDigit (b : UInt8) : Bool := 0x30 ≤ b && b ≤ 0x39

def digit (b : UInt8) : Nat := b.toNat - 0x30

def isExponent (b : UInt8) : Bool := b == 0x65 || b == 0x45

def hex? (b : UInt8) : Option Nat :=
  if 0x30 ≤ b ∧ b ≤ 0x39 then some (b.toNat - 0x30)
  else if 0x61 ≤ b ∧ b ≤ 0x66 then some (b.toNat - 0x61 + 10)
  else if 0x41 ≤ b ∧ b ≤ 0x46 then some (b.toNat - 0x41 + 10)
  else none

def hex4? (a b c d : UInt8) : Option Nat :=
  match hex? a, hex? b, hex? c, hex? d with
  | some a, some b, some c, some d => some (((a * 16 + b) * 16 + c) * 16 + d)
  | _, _, _, _ => none

end Byte

/-- A fault at the bytes already taken. -/
def fault {α : Type} (p : Problem) : Reader α := fun s => .error ⟨p, s.length⟩

/-- A fault at the byte that comes next, counted as taken. -/
def faultAhead {α : Type} (p : Problem) : Reader α := fun s => .error ⟨p, s.length - 1⟩

/-- Drops blanks, then looks at the next byte. -/
def token : Reader (Option UInt8) := fun s =>
  let r := s.dropWhile Byte.isSpace
  .ok (r.head?, r)

def look : Reader (Option UInt8) := fun s => .ok (s.head?, s)

def take : Reader (Option UInt8) := fun s => .ok (s.head?, s.drop 1)

/-- Takes the next byte, whatever it is. -/
def advance : Reader Unit := fun s => .ok ((), s.drop 1)

def takeDigits : Reader Bytes := fun s => .ok (s.takeWhile Byte.isDigit, s.dropWhile Byte.isDigit)

/-- The rest of a word, byte by byte. -/
def word : Bytes → Reader Unit
  | [] => pure ()
  | b :: bs => do
    match ← take with
    | none => fault .endInValue
    | some c => if c = b then word bs else fault .expectedWord

/-- The words that stand for values, without their first letter. -/
def restOfNull : Bytes := [0x75, 0x6C, 0x6C]
def restOfTrue : Bytes := [0x72, 0x75, 0x65]
def restOfFalse : Bytes := [0x61, 0x6C, 0x73, 0x65]

/-! ## Strings -/

/-- The UTF-8 bytes of a code point. -/
def utf8 (n : Nat) : Bytes := Bytes.ofText (String.singleton (Char.ofNat n))

/-- The byte that an escape of one letter stands for. -/
def simpleEscape? (b : UInt8) : Option UInt8 :=
  if b = 0x22 ∨ b = 0x5C ∨ b = 0x2F then some b
  else if b = 0x62 then some 0x08
  else if b = 0x66 then some 0x0C
  else if b = 0x6E then some 0x0A
  else if b = 0x72 then some 0x0D
  else if b = 0x74 then some 0x09
  else none

def isTrailing (n : Nat) : Bool := 0xDC00 ≤ n && n ≤ 0xDFFF

def isLeading (n : Nat) : Bool := 0xD800 ≤ n && n ≤ 0xDBFF

def joinSurrogates (high low : Nat) : Nat := (high - 0xD800) * 0x400 + (low - 0xDC00) + 0x10000

/-- A fault with so many bytes left. -/
def faultAt {α : Type} (p : Problem) (left : Nat) : Except Fault α := .error ⟨p, left⟩

/-- The bytes up to the closing quote, unescaped; `acc` holds those already read, last first. -/
def unquote (acc : Bytes) : Bytes → Except Fault (Bytes × Bytes)
  | [] => faultAt .endInString 0
  | Byte.backslash :: Byte.letterU :: a :: b :: c :: d :: r =>
    match Byte.hex4? a b c d with
    | none => faultAt .invalidEscape r.length
    | some n =>
      if isTrailing n then faultAt .loneSurrogate r.length
      else if isLeading n then
        match r with
        | Byte.backslash :: Byte.letterU :: e :: f :: g :: h :: r =>
          match Byte.hex4? e f g h with
          | none => faultAt .invalidEscape r.length
          | some m =>
            if isTrailing m then unquote ((utf8 (joinSurrogates n m)).reverse ++ acc) r
            else faultAt .loneSurrogate r.length
        | Byte.backslash :: Byte.letterU :: _ => faultAt .endInString 0
        | Byte.backslash :: _ :: r => faultAt .unfinishedSurrogate r.length
        | [Byte.backslash] => faultAt .endInString 0
        | _ :: r => faultAt .unfinishedSurrogate r.length
        | [] => faultAt .endInString 0
      else unquote ((utf8 n).reverse ++ acc) r
  | Byte.backslash :: Byte.letterU :: _ => faultAt .endInString 0
  | Byte.backslash :: b :: r =>
    match simpleEscape? b with
    | some c => unquote (c :: acc) r
    | none => faultAt .invalidEscape r.length
  | [Byte.backslash] => faultAt .endInString 0
  | b :: r =>
    if b = Byte.quoteMark then .ok (acc.reverse, r)
    else if b < 0x20 then faultAt .controlCharacter r.length
    else unquote (b :: acc) r

/-- The rest of a quoted string, after its opening quote. Bytes that spell no text are a fault as far before
the end as there are bytes from the first bad one on, escapes counted by what they stand for. -/
def quotedString : Reader String := fun s =>
  match unquote [] s with
  | .error f => .error f
  | .ok (bytes, r) =>
    match Bytes.text? bytes with
    | some t => .ok (t, r)
    | none => faultAt .notUnicode (r.length + (bytes.length - bytes.spelledLength))

/-- Runs over a quoted string that nobody wants, after its opening quote; only its escapes are checked. -/
def skipQuoted : Bytes → Except Fault (Unit × Bytes)
  | [] => faultAt .endInString 0
  | Byte.backslash :: Byte.letterU :: a :: b :: c :: d :: r =>
    match Byte.hex4? a b c d with
    | none => faultAt .invalidEscape r.length
    | some _ => skipQuoted r
  | Byte.backslash :: Byte.letterU :: _ => faultAt .endInString 0
  | Byte.backslash :: b :: r =>
    match simpleEscape? b with
    | some _ => skipQuoted r
    | none => faultAt .invalidEscape r.length
  | [Byte.backslash] => faultAt .endInString 0
  | b :: r =>
    if b = Byte.quoteMark then .ok ((), r)
    else if b < 0x20 then faultAt .controlCharacter (r.length + 1)
    else skipQuoted r

/-- The rest of a quoted string that nobody wants. -/
def skipString : Reader Unit := skipQuoted

/-! ## Separators -/

/-- The colon between a name and its value. -/
def colon : Reader Unit := do
  match ← token with
  | none => faultAhead .endInObject
  | some b => if b = Byte.colon then advance else faultAhead .expectedColon

/-- Whether another item of a list follows; `first` before any item was read. -/
def moreItems (first : Bool) : Reader Bool := do
  match ← token with
  | none => faultAhead .endInList
  | some b =>
    if b = Byte.closeList then pure false
    else if first then pure true
    else if b = Byte.comma then
      advance
      match ← token with
      | none => faultAhead .endInValue
      | some c => if c = Byte.closeList then faultAhead .trailingComma else pure true
    else faultAhead .expectedListEnd

/-- The name of the next member of an object, if another follows; its opening quote is taken too. -/
def nextName (first : Bool) : Reader (Option String) := do
  match ← token with
  | none => faultAhead .endInObject
  | some b =>
    if b = Byte.closeObject then pure none
    else if first then
      if b = Byte.quoteMark then advance; some <$> quotedString else faultAhead .nameNotQuoted
    else if b = Byte.comma then
      advance
      match ← token with
      | none => faultAhead .endInValue
      | some c =>
        if c = Byte.quoteMark then advance; some <$> quotedString
        else if c = Byte.closeObject then faultAhead .trailingComma
        else faultAhead .nameNotQuoted
    else faultAhead .expectedObjectEnd

/-- The bracket that closes a list whose items are all read. -/
def endOfList : Reader Unit := do
  match ← token with
  | none => faultAhead .endInList
  | some b =>
    if b = Byte.closeList then advance
    else if b = Byte.comma then
      advance
      match ← token with
      | some c => if c = Byte.closeList then faultAhead .trailingComma else faultAhead .trailingCharacters
      | none => faultAhead .trailingCharacters
    else faultAhead .trailingCharacters

/-- The brace that closes an object whose members are all read. -/
def endOfObject : Reader Unit := do
  match ← token with
  | none => faultAhead .endInObject
  | some b =>
    if b = Byte.closeObject then advance
    else if b = Byte.comma then faultAhead .trailingComma
    else faultAhead .trailingCharacters

def endOfText : Reader Unit := do
  match ← token with
  | none => pure ()
  | some _ => faultAhead .trailingCharacters

/-- What a reader makes of a whole text. -/
def readAll {α : Type} (r : Reader α) (source : Bytes) : Except Fault α :=
  match (r <* endOfText) source with
  | .ok (a, _) => .ok a
  | .error f => .error f

end FrameStream.Json
