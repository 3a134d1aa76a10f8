import FrameStream.Bytes
import FrameStream.Json.Reader

/-!
# Targets

What a request is for, found from the path of its target. A model is named by one segment that is not
empty; percent escapes in it are decoded, and what is no escape stays as it is.
-/

namespace FrameStream.Http

inductive Route where
  | health
  | channel
  | models
  | model (segment : String)
  deriving DecidableEq, Repr

/-- The target without its scheme and authority. -/
def withoutAuthority (target : String) : String :=
  match target.splitOn "://" with
  | _ :: rest :: more =>
    if target.startsWith "/" then target
    else
      let rest := String.intercalate "://" (rest :: more)
      "/" ++ String.intercalate "/" ((rest.splitOn "/").drop 1)
  | _ => target

/-- The path of a target, without query and fragment. -/
def path (target : String) : String :=
  String.ofList ((withoutAuthority target).toList.takeWhile fun c => c ≠ '?' ∧ c ≠ '#')

def route? (path : String) : Option Route :=
  match path.splitOn "/" with
  | ["", "health"] => some .health
  | ["", "api", "v1", "ws"] => some .channel
  | ["", "api", "v1", "models"] => some .models
  | ["", "api", "v1", "models", segment] => if segment = "" then none else some (.model segment)
  | _ => none

def percent : UInt8 := 0x25

def percentDecode : Bytes → Bytes
  | a :: b :: c :: rest =>
    if a = percent then
      match Json.Byte.hex? b, Json.Byte.hex? c with
      | some x, some y => .ofNat (x * 16 + y) :: percentDecode rest
      | _, _ => a :: percentDecode (b :: c :: rest)
    else a :: percentDecode (b :: c :: rest)
  | a :: rest => a :: percentDecode rest
  | [] => []

/-- The text of a segment, unless its bytes spell none. -/
def segmentText? (segment : String) : Option String :=
  Bytes.text? (percentDecode (Bytes.ofText segment))

end FrameStream.Http
