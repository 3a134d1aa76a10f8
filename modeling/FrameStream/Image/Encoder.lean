import FrameStream.Bytes

/-!
# Encoders

An encoder turns the packed bytes of a picture and its sides into a file. A call may also end with an error, or
break down; it runs in a task of its own, so that a breakdown ends the task and not its caller.
-/

namespace FrameStream.Image

/-- How a call of an encoder ended. -/
inductive Encoding where
  | file (bytes : Bytes)
  /-- The encoder says why there is no file. -/
  | refused (reason : String)
  /-- The task of the call broke down; what the runtime reports of it. -/
  | brokenDown (report : String)
  deriving DecidableEq, Repr

/-- What is made of the bytes of a picture, its width and its height. -/
abbrev Encoder := Bytes → UInt32 → UInt32 → Encoding

end FrameStream.Image
