import FrameStream.Image.Jpeg.Encode
import FrameStream.Processor
import FrameStream.Request
import FrameStream.Text.Base64

/-!
# Inverted pictures

Turns every byte of a frame into its complement and answers with the picture as a JPEG file in a data URI.
Only a well-formed frame is answered; everything else is an error of its unit. The encoder is left open where the
answer is put together, and is the one of `Image.Jpeg` in the processor.
-/

namespace FrameStream.Invert

def name : String := "invert_video"

/-- The largest width a video may have. -/
def maxFrameWidth : Nat := 1920

/-- The largest height a video may have. -/
def maxFrameHeight : Nat := 1080

def uriStart : String := "data:image/jpg;base64,"

/-- A frame with every byte turned into its complement. -/
def invert (f : Frame) : Frame := { f with data := f.data.map (255 - ·) }

/-- The reason a frame with the wrong number of bytes is refused. -/
def lengthReason (f : Frame) : String :=
  "frame is " ++ toString f.data.length ++ " bytes, expected " ++
    toString (Frame.expectedLength f.width f.height) ++ " for " ++ toString f.width.toNat ++ "x" ++
    toString f.height.toNat

/-- The data URI of the inverted picture. The check of the frame compares its length in 64-bit arithmetic, so the
encoder may still be given a number of bytes that it breaks down at. -/
def encode (encoder : Image.Encoder) (f : Frame) : Except String String :=
  match encoder (invert f).data (invert f).width (invert f).height with
  | .file bytes => .ok (uriStart ++ String.ofList (Text.Base64.encode bytes))
  | .refused reason => .error ("jpeg encoding failed: " ++ reason)
  | .brokenDown report => .error ("encoder task failed: " ++ report)

def process (encoder : Image.Encoder) (u : WorkUnit) : UnitOutcome :=
  if u.frame.wellFormed then
    match encode encoder u.frame with
    | .ok uri => .done (.object [("img", .string uri), ("labels", .array [])])
    | .error reason => .failed ⟨u.index, reason⟩
  else .failed ⟨u.index, lengthReason u.frame⟩

def processor : Processor where
  metadata := {
    name
    description := "Streams the colour-inverted frames of a video"
    inputs := [⟨"input", "STRING", [maxResourceLength]⟩]
    outputs := [⟨"output", "INT8", [maxFrameHeight, maxFrameWidth, Frame.channels]⟩] }
  process := process Image.Jpeg.encoder

end FrameStream.Invert
