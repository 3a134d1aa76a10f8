import FrameStream.Json.Reader

/-!
# Running over a value that nobody wants

The members of an object that have no meaning for the reader are run over without building a value, with
no limit on how deep they nest. The containers that are open are kept in a list, innermost first.
-/

namespace FrameStream.Json

/-- A container whose end was not yet seen. -/
inductive Container where
  | list
  | object
  deriving DecidableEq, Repr

namespace Container

def closing : Container → UInt8
  | .list => Byte.closeList
  | .object => Byte.closeObject

/-- The problem when a text ends in a container. -/
def unfinished : Container → Problem
  | .list => .endInList
  | .object => .endInObject

/-- The problem when neither a comma nor the closing byte follows an item. -/
def unseparated : Container → Problem
  | .list => .expectedListEnd
  | .object => .expectedObjectEnd

end Container

/-- At least one digit, then all that follow. -/
def skipDigits (missing : Reader Unit) : Reader Unit := do
  match ← look with
  | some b => if Byte.isDigit b then discard takeDigits else missing
  | none => missing

def skipExponent : Reader Unit := do
  match ← look with
  | some b =>
    if Byte.isExponent b then
      advance
      let sign ← look
      if sign = some Byte.minus ∨ sign = some Byte.plus then advance
      skipDigits do advance; fault .invalidNumber
  | none => pure ()

/-- A fraction and an exponent, if they follow. -/
def skipFraction : Reader Unit := do
  if (← look) = some Byte.point then
    advance
    skipDigits (faultAhead .invalidNumber)
  skipExponent

/-- A numeral that nobody wants, after its sign. -/
def skipNumber : Reader Unit := do
  match ← take with
  | none => fault .invalidNumber
  | some b =>
    if b = 0x30 then
      match ← look with
      | some c => if Byte.isDigit c then faultAhead .invalidNumber else skipFraction
      | none => pure ()
    else if Byte.isDigit b then
      let _ ← takeDigits
      skipFraction
    else fault .invalidNumber

/-- A value without parts; its first byte is `b`. -/
def skipScalar (b : UInt8) : Reader Unit := do
  if b = Byte.letterN then advance; word restOfNull
  else if b = Byte.letterT then advance; word restOfTrue
  else if b = Byte.letterF then advance; word restOfFalse
  else if b = Byte.quoteMark then advance; skipString
  else if b = Byte.minus then advance; skipNumber
  else if Byte.isDigit b then skipNumber
  else faultAhead .expectedValue

/-- The name of a member and its colon. -/
def skipName : Reader Unit := do
  match ← token with
  | none => faultAhead .endInObject
  | some b =>
    if b = Byte.quoteMark then
      advance
      skipString
      colon
    else faultAhead .nameNotQuoted

/-- Where the reader stands inside the open containers. -/
inductive Stand where
  /-- Before a value. -/
  | before
  /-- Just after an opening byte. -/
  | opened
  /-- Just after a value. -/
  | after
  deriving DecidableEq, Repr

/-- What has to come before the next item of a container. -/
def skipLabel : Container → Reader Unit
  | .list => pure ()
  | .object => skipName

/-- Runs on until every open container is closed. Each step takes a byte or goes before a value. -/
def skipFrom : Nat → Stand → List Container → Reader Unit
  | 0, _, _ => fault .endInValue
  | fuel + 1, .before, inside => do
    match ← token with
    | none => faultAhead .endInValue
    | some b =>
      if b = Byte.openList then
        advance
        skipFrom fuel .opened (.list :: inside)
      else if b = Byte.openObject then
        advance
        skipFrom fuel .opened (.object :: inside)
      else
        skipScalar b
        skipFrom fuel .after inside
  | _ + 1, .opened, [] => pure ()
  | fuel + 1, .opened, c :: inside => do
    match ← token with
    | none => faultAhead c.unfinished
    | some b =>
      if b = c.closing then
        advance
        skipFrom fuel .after inside
      else
        skipLabel c
        skipFrom fuel .before (c :: inside)
  | _ + 1, .after, [] => pure ()
  | fuel + 1, .after, c :: inside => do
    match ← token with
    | none => faultAhead c.unfinished
    | some b =>
      if b = Byte.comma then
        advance
        skipLabel c
        skipFrom fuel .before (c :: inside)
      else if b = c.closing then
        advance
        skipFrom fuel .after inside
      else faultAhead c.unseparated

def skipValue : Reader Unit := do
  let s ← get
  skipFrom (2 * s.length + 2) .before []

end FrameStream.Json
