import FrameStream.Bytes
import FrameStream.Json.Text
import FrameStream.Text.Quoted

/-!
# Faults of a JSON text

A fault is what is wrong and how many bytes were left when it was found, so its place in the text follows
from the length alone. `Fault.message` gives the wording, with line and column.
-/

namespace FrameStream.Json

/-- A value of another kind than the one wanted. -/
inductive Found where
  | null
  | bool (b : Bool)
  | number (n : Number)
  | string (s : String)
  | array
  | object
  deriving DecidableEq, Repr

inductive Wanted where
  | string
  | word32
  | array
  | record (name : String)
  deriving DecidableEq, Repr

inductive Problem where
  | endInValue
  | endInList
  | endInObject
  | endInString
  | expectedValue
  | expectedWord
  | expectedColon
  | expectedListEnd
  | expectedObjectEnd
  | trailingComma
  | trailingCharacters
  | nameNotQuoted
  | invalidNumber
  | numberOutOfRange
  | invalidEscape
  | loneSurrogate
  | unfinishedSurrogate
  | controlCharacter
  | notUnicode
  | tooDeep
  | wrongKind (found : Found) (wanted : Wanted)
  | outOfRange (value : Int) (wanted : Wanted)
  | repeatedField (name : String)
  | wrongLength (length : Nat) (record : String) (fields : Nat)
  deriving DecidableEq, Repr

/-- A problem and the number of bytes not yet read when it was found. -/
structure Fault where
  problem : Problem
  left : Nat
  deriving DecidableEq, Repr

/-- The words for a value of an unwanted kind. -/
def Found.text : Found → String
  | .null => "null"
  | .bool true => "boolean `true`"
  | .bool false => "boolean `false`"
  | .number (.whole i) => "integer `" ++ (Number.whole i).text ++ "`"
  | .number (.real x) => "floating point `" ++ (Number.real x).text ++ "`"
  | .string s => "string " ++ FrameStream.Text.Quoted.quoted s
  | .array => "sequence"
  | .object => "map"

def Wanted.text : Wanted → String
  | .string => "a string"
  | .word32 => "u32"
  | .array => "a sequence"
  | .record name => "struct " ++ name

def Problem.text : Problem → String
  | .endInValue => "EOF while parsing a value"
  | .endInList => "EOF while parsing a list"
  | .endInObject => "EOF while parsing an object"
  | .endInString => "EOF while parsing a string"
  | .expectedValue => "expected value"
  | .expectedWord => "expected ident"
  | .expectedColon => "expected `:`"
  | .expectedListEnd => "expected `,` or `]`"
  | .expectedObjectEnd => "expected `,` or `\x7d`"
  | .trailingComma => "trailing comma"
  | .trailingCharacters => "trailing characters"
  | .nameNotQuoted => "key must be a string"
  | .invalidNumber => "invalid number"
  | .numberOutOfRange => "number out of range"
  | .invalidEscape => "invalid escape"
  | .loneSurrogate => "lone leading surrogate in hex escape"
  | .unfinishedSurrogate => "unexpected end of hex escape"
  | .controlCharacter => "control character (\\u0000-\\u001F) found while parsing a string"
  | .notUnicode => "invalid unicode code point"
  | .tooDeep => "recursion limit exceeded"
  | .wrongKind found wanted => "invalid type: " ++ found.text ++ ", expected " ++ wanted.text
  | .outOfRange i wanted =>
    "invalid value: integer `" ++ (Number.whole i).text ++ "`, expected " ++ wanted.text
  | .repeatedField name => "duplicate field `" ++ name ++ "`"
  | .wrongLength n record fields =>
    "invalid length " ++ toString n ++ ", expected struct " ++ record ++ " with " ++ toString fields ++
      " elements"

/-- The line and column after the first `offset` bytes: lines count from one, columns from zero. -/
def place (source : Bytes) (offset : Nat) : Nat × Nat :=
  (source.take offset).foldl
    (fun (p : Nat × Nat) b => if b = 10 then (p.1 + 1, 0) else (p.1, p.2 + 1)) (1, 0)

/-- The wording of a fault found in `source`, with its place. -/
def Fault.message (f : Fault) (source : Bytes) : String :=
  let (line, column) := place source (source.length - f.left)
  f.problem.text ++ " at line " ++ toString line ++ " column " ++ toString column

end FrameStream.Json
