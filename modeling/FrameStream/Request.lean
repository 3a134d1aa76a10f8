import FrameStream.Json.Parse
import FrameStream.StreamError
import FrameStream.Unicode.Blank
import FrameStream.Unicode.Lowercase

/-!
# Requests

A request is read from a text as it stands and judged afterwards, so a refusal can still carry its key.
`Request.validate` tries seven rules in a fixed order; the first that fails is the refusal.
-/

namespace FrameStream

/-- A request as a client wrote it. A null member counts as absent. -/
structure Request where
  key : Option String := none
  resource : Option String := none
  count : Option Json := none
  model : Option String := none
  deriving Repr, Inhabited

inductive Refusal where
  | malformed (report : String)
  | keyMissing
  | keyTooLong
  | resourceBlank
  | resourceTooLong
  | badCount (given : Json)
  | modelBlank
  | modelTooLong
  | unknownModel (name : String)
  deriving Repr, Inhabited

structure Job where
  key : String
  resource : String
  requested : Option Nat
  model : String
  deriving DecidableEq, Repr, Inhabited

/-- The most bytes of a resource reference. -/
def maxResourceLength : Nat := 128

/-- The most bytes of a correlation key. -/
def maxKeyLength : Nat := 256

/-- The most bytes of a model name, blanks at its ends not counted. -/
def maxModelLength : Nat := 64

namespace Refusal

def reason : Refusal → String
  | .malformed report => "Malformed job request: " ++ report
  | .keyMissing => "Job request is missing 'key'"
  | .keyTooLong => "Correlation key must not exceed " ++ toString maxKeyLength ++ " bytes"
  | .resourceBlank => "Resource reference must not be empty"
  | .resourceTooLong => "Resource reference must not exceed " ++ toString maxResourceLength ++ " bytes"
  | .badCount given => "'count' must be a non-negative integer, got " ++ given.text
  | .modelBlank => "Model name must not be empty"
  | .modelTooLong => "Model name must not exceed " ++ toString maxModelLength ++ " bytes"
  | .unknownModel name => "Unknown model '" ++ name ++ "'"

/-- A refusal as an error of the service. -/
def error (r : Refusal) : StreamError := .invalid r.reason

end Refusal

namespace Request

/-- The fields of a request, in the order in which a list gives them. -/
def record : Json.Record Request where
  name := "JobRequest"
  start := {}
  whole := false
  fields := [
    { name := "key", read := fun _ => (fun v r => { r with key := v }) <$> Json.optional Json.wantString },
    { name := "resource", read := fun _ => (fun v r => { r with resource := v }) <$> Json.optional Json.wantString },
    { name := "count", read := fun levels => (fun v r => { r with count := v }) <$> Json.optional (Json.value levels) },
    { name := "model", read := fun _ => (fun v r => { r with model := v }) <$> Json.optional Json.wantString }]

def parse (source : Bytes) : Except Refusal Request :=
  match record.parse source with
  | .ok r => .ok r
  | .error f => .error (.malformed (f.message source))

/-- A key is there and not too long. -/
def validKey : Option String → Except Refusal String
  | none => .error .keyMissing
  | some key => if maxKeyLength < key.utf8ByteSize then .error .keyTooLong else .ok key

/-- A reference is there, not blank, and not too long. -/
def validResource (given : Option String) : Except Refusal String :=
  let resource := given.getD ""
  if Unicode.trim resource = "" then .error .resourceBlank
  else if maxResourceLength < resource.utf8ByteSize then .error .resourceTooLong
  else .ok resource

/-- A count is absent, null, or a whole number that is not negative. -/
def validCount : Option Json → Except Refusal (Option Nat)
  | none => .ok none
  | some .null => .ok none
  | some v =>
    match v.natural? with
    | some n => .ok (some n)
    | none => .error (.badCount v)

/-- A model name in lower case, or the default one. -/
def validModel (defaultModel : String) : Option String → Except Refusal String
  | none => .ok (Unicode.lowercase defaultModel)
  | some name =>
    let trimmed := Unicode.trim name
    if trimmed = "" then .error .modelBlank
    else if maxModelLength < trimmed.utf8ByteSize then .error .modelTooLong
    else .ok (Unicode.lowercase trimmed)

/-- The job a request asks for, or the first rule it breaks. -/
def validate (r : Request) (defaultModel : String) : Except Refusal Job := do
  let key ← validKey r.key
  let resource ← validResource r.resource
  let requested ← validCount r.count
  let model ← validModel defaultModel r.model
  pure { key, resource, requested, model }

end Request
end FrameStream
