import FrameStream.Frame
import FrameStream.Json.Text

/-!
# Processors

A processor turns one unit into a payload, or says why it cannot; a call may also break down without an
answer. Whatever happens to one unit leaves the others alone.
-/

namespace FrameStream

/-- A unit that could not be processed. -/
structure ProcessingError where
  index : SequenceIndex
  reason : String
  deriving DecidableEq, Repr, Inhabited

def ProcessingError.message (e : ProcessingError) : String :=
  "unit " ++ toString e.index ++ " failed: " ++ e.reason

/-- How a call of a processor ended. -/
inductive UnitOutcome where
  | done (payload : Json)
  | failed (error : ProcessingError)
  | aborted
  deriving Repr, Inhabited

/-- The declared shape of an input or output. -/
structure TensorShape where
  name : String
  datatype : String
  shape : List Nat
  deriving DecidableEq, Repr, Inhabited

/-- What clients are told about a processor. -/
structure Metadata where
  name : String
  description : String
  inputs : List TensorShape
  outputs : List TensorShape
  deriving DecidableEq, Repr, Inhabited

structure Processor where
  metadata : Metadata
  process : WorkUnit → UnitOutcome
  /-- The milliseconds a unit takes. -/
  latency : WorkUnit → Nat := fun _ => 0

/-- The value a shape is on the wire. -/
def TensorShape.json (t : TensorShape) : Json :=
  .object [("name", .string t.name), ("datatype", .string t.datatype), ("shape", .array (t.shape.map .nat))]

/-- The value a description is on the wire. -/
def Metadata.json (m : Metadata) : Json :=
  .object [("name", .string m.name), ("description", .string m.description),
    ("inputs", .array (m.inputs.map TensorShape.json)), ("outputs", .array (m.outputs.map TensorShape.json))]

end FrameStream
