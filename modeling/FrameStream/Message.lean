import FrameStream.Frame
import FrameStream.Json.Text

/-!
# Messages to a client

A job is first accepted or rejected, then every unit gets a result or an error under its index, and a
stream that breaks off ends with an error for the whole job. `Message.text` is what goes over the wire.
-/

namespace FrameStream

/-- What a message says about its whole job. -/
inductive JobStatus where
  | accepted
  | error
  | rejected
  deriving DecidableEq, Repr

def JobStatus.word : JobStatus → String
  | .accepted => "accepted"
  | .error => "error"
  | .rejected => "rejected"

inductive Message where
  | accepted (key : String)
  | error (key reason : String)
  | rejected (key : Option String) (reason : String)
  | result (key : String) (index : SequenceIndex) (data : Json)
  | unitError (key : String) (index : SequenceIndex) (reason : String)
  deriving Repr, Inhabited

namespace Message

def key? : Message → Option String
  | .accepted key => some key
  | .error key _ => some key
  | .rejected key _ => key
  | .result key _ _ => some key
  | .unitError key _ _ => some key

def index? : Message → Option SequenceIndex
  | .result _ index _ => some index
  | .unitError _ index _ => some index
  | _ => none

/-- What a message says about its whole job. -/
def status? : Message → Option JobStatus
  | .accepted _ => some .accepted
  | .error _ _ => some .error
  | .rejected _ _ => some .rejected
  | _ => none

def isUnitError : Message → Bool
  | .unitError _ _ _ => true
  | _ => false

/-- Whether nothing follows this message for its job. -/
def isLast : Message → Bool
  | .error _ _ => true
  | .rejected _ _ => true
  | _ => false

/-- A key as a value; no key is the null value. -/
def keyValue : Option String → Json
  | some key => .string key
  | none => .null

/-- The value a message is on the wire; the members keep this order. -/
def json : Message → Json
  | .accepted key => .object [("key", .string key), ("status", .string JobStatus.accepted.word)]
  | .error key reason =>
    .object [("key", .string key), ("status", .string JobStatus.error.word), ("error", .string reason)]
  | .rejected key reason =>
    .object [("key", keyValue key), ("status", .string JobStatus.rejected.word), ("error", .string reason)]
  | .result key index data => .object [("key", .string key), ("index", .nat index), ("data", data)]
  | .unitError key index reason =>
    .object [("key", .string key), ("index", .nat index), ("data", .object [("error", .string reason)])]

/-- The text a message is on the wire. -/
def text (m : Message) : String := m.json.text

end Message
end FrameStream
