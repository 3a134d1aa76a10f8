import FrameStream.Bytes
import FrameStream.Service.Config
import FrameStream.Text.Unsigned

/-!
# Settings of the server

Every setting comes from a variable of its name and has a default. A variable that is not set, or whose
bytes are no text, counts as absent. A number that cannot be read stops the server at its start; the first
bad one in the order of the settings is reported.
-/

namespace FrameStream

/-- A variable that should hold a number and does not. -/
structure SettingError where
  name : String
  kind : String
  cause : Text.Unsigned.NumeralError
  deriving DecidableEq, Repr

def SettingError.message (e : SettingError) : String :=
  e.name ++ " must be a valid " ++ e.kind ++ ": " ++ e.cause.message

/-- What the server is told at its start. -/
structure Settings where
  host : String
  port : Nat
  origins : List String
  requestTimeout : Nat
  shutdownTimeout : Nat
  /-- The units processed at once; without it, as many as the machine can. -/
  poolSize : Option Nat
  window : Nat
  channelBuffer : Nat
  defaultModel : String
  deriving DecidableEq, Repr, Inhabited

namespace Settings

/-- The variables that are set, as bytes. -/
abbrev Variables := List (String × Bytes)

/-- A kind of number: its name and its largest value. -/
structure NumberKind where
  name : String
  max : Nat

def word16 : NumberKind := ⟨"u16", twoTo 16 - 1⟩
def word64 : NumberKind := ⟨"u64", twoTo 64 - 1⟩
def size : NumberKind := ⟨"usize", twoTo 64 - 1⟩

/-- The text of a variable, if it is set to one. -/
def text? (vars : Variables) (name : String) : Option String :=
  match vars.lookup name with
  | some bytes => Bytes.text? bytes
  | none => none

def number? (vars : Variables) (name : String) (kind : NumberKind) : Except SettingError (Option Nat) :=
  match text? vars name with
  | none => .ok none
  | some raw =>
    match Text.Unsigned.read kind.max (Unicode.trim raw) with
    | .ok n => .ok (some n)
    | .error cause => .error ⟨name, kind.name, cause⟩

/-- The number a variable holds, or the default. -/
def number (vars : Variables) (name : String) (kind : NumberKind) (default : Nat) :
    Except SettingError Nat :=
  (·.getD default) <$> number? vars name kind

/-- The parts of a list between commas, without blanks at their ends; blank parts are left out. -/
def listParts (s : String) : List String :=
  ((s.splitOn ",").map Unicode.trim).filter (· ≠ "")

/-- The outbound messages that a channel queues by default. -/
def defaultBuffer : Nat := 16

def ofVariables (vars : Variables) : Except SettingError Settings := do
  let port ← number vars "PORT" word16 8998
  let requestTimeout ← number vars "REQUEST_TIMEOUT_SECS" word64 30
  let shutdownTimeout ← number vars "SHUTDOWN_TIMEOUT_SECS" word64 10
  let poolSize ← number? vars "WORKER_POOL_SIZE" size
  let window ← number vars "DISPATCH_WINDOW" size defaultWindow
  let channelBuffer ← number vars "CHANNEL_BUFFER" size defaultBuffer
  pure {
    host := (text? vars "HOST").getD "0.0.0.0"
    port
    origins := listParts ((text? vars "CORS_ORIGINS").getD "http://localhost:5173")
    requestTimeout
    shutdownTimeout
    poolSize
    window
    channelBuffer
    defaultModel := Unicode.lowercase (Unicode.trim ((text? vars "DEFAULT_MODEL").getD Invert.name)) }

def service (s : Settings) : ServiceConfig := { window := s.window, defaultModel := s.defaultModel }

end Settings
end FrameStream
