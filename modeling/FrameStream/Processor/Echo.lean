import FrameStream.Processor

/-!
# Echo

Reports the dimensions of a frame and the number of its bytes, without a look at the picture.
-/

namespace FrameStream.Echo

def name : String := "echo"

/-- The answer for one unit; a frame without bytes has none. -/
def process (u : WorkUnit) : UnitOutcome :=
  if u.frame.data.isEmpty then .failed ⟨u.index, "empty frame"⟩
  else
    .done (.object [("bytes", .nat u.frame.data.length), ("height", .nat u.frame.height.toNat),
      ("width", .nat u.frame.width.toNat)])

def processor : Processor where
  metadata := {
    name
    description := "Returns the dimensions and size of each frame"
    inputs := [⟨"input", "STRING", [1]⟩]
    outputs := [⟨"output", "UINT32", [3]⟩] }
  process

end FrameStream.Echo
