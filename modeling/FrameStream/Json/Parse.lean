import FrameStream.Json.Numeral
import FrameStream.Json.Skipping

/-!
# Reading values

`value` reads a free-form value and `Record.read` a record with known fields, which a text gives as an
object or as a list of the fields in their order. Both stop at a bracket that would open one level too many.
-/

namespace FrameStream.Json

/-- The brackets that may be open at once. -/
def maxLevels : Nat := 127

/-- The items of a list after its opening bracket, up to and with the closing one. -/
def items {α : Type} (item : Reader α) : Nat → Bool → List α → Reader (List α)
  | 0, _, _ => fault .endInList
  | fuel + 1, first, done => do
    if ← moreItems first then
      let a ← item
      items item fuel false (a :: done)
    else
      endOfList
      pure done.reverse

/-- The members of an object after its opening brace, up to and with the closing one. -/
def members {σ : Type} (member : String → σ → Reader σ) : Nat → Bool → σ → Reader σ
  | 0, _, _ => fault .endInObject
  | fuel + 1, first, done => do
    match ← nextName first with
    | some name =>
      let done ← member name done
      members member fuel false done
    | none =>
      endOfObject
      pure done

/-- The rest of the text bounds how often anything can follow. -/
def bound : Reader Nat := fun s => .ok (s.length + 1, s)

/-- A value without parts; its first byte is `b`. -/
def scalar (b : UInt8) : Reader Json := do
  if b = Byte.letterN then advance; word restOfNull; pure .null
  else if b = Byte.letterT then advance; word restOfTrue; pure (.bool true)
  else if b = Byte.letterF then advance; word restOfFalse; pure (.bool false)
  else if b = Byte.quoteMark then advance; .string <$> quotedString
  else if b = Byte.minus ∨ Byte.isDigit b then .number <$> numeral
  else faultAhead .expectedValue

/-- A value with at most so many brackets open at once. -/
def value : Nat → Reader Json
  | 0 => do
    match ← token with
    | none => faultAhead .endInValue
    | some b => if b = Byte.openList ∨ b = Byte.openObject then faultAhead .tooDeep else scalar b
  | levels + 1 => do
    match ← token with
    | none => faultAhead .endInValue
    | some b =>
      if b = Byte.openList then
        advance
        .array <$> items (value levels) (← bound) true []
      else if b = Byte.openObject then
        advance
        .object <$> members
          (fun name done => do
            colon
            let v ← value levels
            pure (NameTable.insert name v done))
          (← bound) true []
      else scalar b

def parse (source : Bytes) : Except Fault Json := readAll (value maxLevels) source

/-! ## Values of a wanted kind -/

/-- The fault of a value of another kind, whose first byte is `b`. A container is not entered. -/
def unwanted {α : Type} (wanted : Wanted) (b : UInt8) : Reader α := do
  if b = Byte.openList then fault (.wrongKind .array wanted)
  else if b = Byte.openObject then fault (.wrongKind .object wanted)
  else
    match ← scalar b with
    | .null => fault (.wrongKind .null wanted)
    | .bool v => fault (.wrongKind (.bool v) wanted)
    | .number n => fault (.wrongKind (.number n) wanted)
    | .string s => fault (.wrongKind (.string s) wanted)
    | .array _ => fault (.wrongKind .array wanted)
    | .object _ => fault (.wrongKind .object wanted)

def wantString : Reader String := do
  match ← token with
  | none => faultAhead .endInValue
  | some b => if b = Byte.quoteMark then advance; quotedString else unwanted .string b

def wantWord32 : Reader UInt32 := do
  match ← token with
  | none => faultAhead .endInValue
  | some b =>
    if b = Byte.minus ∨ Byte.isDigit b then
      match ← numeral with
      | .whole (.ofNat n) =>
        if n < twoTo 32 then pure (.ofNat n) else fault (.outOfRange n .word32)
      | .whole i => fault (.outOfRange i .word32)
      | .real x => fault (.wrongKind (.number (.real x)) .word32)
    else unwanted .word32 b

/-- A value, or nothing where the text says null. -/
def optional {α : Type} (r : Reader α) : Reader (Option α) := do
  if (← token) = some Byte.letterN then
    advance
    word restOfNull
    pure none
  else some <$> r

/-- A list of values of one kind. -/
def wantList {α : Type} (item : Nat → Reader α) (levels : Nat) : Reader (List α) := do
  match ← token with
  | none => faultAhead .endInValue
  | some b =>
    if b = Byte.openList then
      match levels with
      | 0 => faultAhead .tooDeep
      | levels + 1 =>
        advance
        items (item levels) (← bound) true []
    else unwanted .array b

/-! ## Records -/

/-- A field: its name, and how its value changes the record. -/
structure Field (σ : Type) where
  name : String
  read : Nat → Reader (σ → σ)

/-- A kind of record: its fields in order, and the record when none is given. -/
structure Record (σ : Type) where
  name : String
  fields : List (Field σ)
  start : σ
  /-- Whether a list has to give every field. -/
  whole : Bool

/-- The fault of a field given twice. A closing brace that follows is taken before it is reported. -/
def repeated {α : Type} (name : String) : Reader α := do
  if (← token) = some Byte.closeObject then advance
  fault (.repeatedField name)

/-- One member of a record; a name that is no field is run over. -/
def Record.member {σ : Type} (k : Record σ) (levels : Nat) (name : String) (s : σ × List String) :
    Reader (σ × List String) := do
  match k.fields.find? (·.name = name) with
  | none =>
    colon
    skipValue
    pure s
  | some f =>
    if name ∈ s.2 then repeated name
    else
      colon
      let change ← f.read levels
      pure (change s.1, name :: s.2)

/-- The fields of a record given as a list, from the `i`-th on. -/
def Record.positional {σ : Type} (k : Record σ) (levels : Nat) :
    List (Field σ) → Nat → σ → Reader σ
  | [], _, s => do
    endOfList
    pure s
  | f :: fs, i, s => do
    if ← moreItems (i = 0) then
      let change ← f.read levels
      k.positional levels fs (i + 1) (change s)
    else
      endOfList
      if k.whole then fault (.wrongLength i k.name k.fields.length) else pure s

/-- A record, given as an object or as a list. -/
def Record.read {σ : Type} (k : Record σ) (levels : Nat) : Reader σ := do
  match ← token with
  | none => faultAhead .endInValue
  | some b =>
    if b = Byte.openList then
      match levels with
      | 0 => faultAhead .tooDeep
      | levels + 1 =>
        advance
        k.positional levels k.fields 0 k.start
    else if b = Byte.openObject then
      match levels with
      | 0 => faultAhead .tooDeep
      | levels + 1 =>
        advance
        let s ← members (k.member levels) (← bound) true (k.start, [])
        pure s.1
    else unwanted (.record k.name) b

def Record.parse {σ : Type} (k : Record σ) (source : Bytes) : Except Fault σ :=
  readAll (k.read maxLevels) source

end FrameStream.Json
