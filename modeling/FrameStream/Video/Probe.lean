import FrameStream.Binary64.Reading
import FrameStream.Frame
import FrameStream.Json.Parse
import FrameStream.Text.Unsigned

/-!
# What a probe reports

A probe describes every stream of a file in a text. The geometry of a video is that of the first stream
that calls itself one; a rate or a number of frames that cannot be read is no error.
-/

namespace FrameStream.Video

structure Track where
  kind : Option String := none
  width : Option UInt32 := none
  height : Option UInt32 := none
  rate : Option String := none
  frames : Option String := none
  deriving DecidableEq, Repr, Inhabited

/-- A report: the streams of a file. -/
structure Report where
  tracks : List Track := []
  deriving DecidableEq, Repr, Inhabited

/-- The fields of a stream; a list has to give them all. -/
def Track.record : Json.Record Track where
  name := "FfprobeStream"
  start := {}
  whole := true
  fields := [
    { name := "codec_type"
      read := fun _ => (fun v t => { t with kind := v }) <$> Json.optional Json.wantString },
    { name := "width"
      read := fun _ => (fun v t => { t with width := v }) <$> Json.optional Json.wantWord32 },
    { name := "height"
      read := fun _ => (fun v t => { t with height := v }) <$> Json.optional Json.wantWord32 },
    { name := "r_frame_rate"
      read := fun _ => (fun v t => { t with rate := v }) <$> Json.optional Json.wantString },
    { name := "nb_frames"
      read := fun _ => (fun v t => { t with frames := v }) <$> Json.optional Json.wantString }]

def Report.record : Json.Record Report where
  name := "FfprobeOutput"
  start := {}
  whole := false
  fields := [
    { name := "streams"
      read := fun levels => (fun v r => { r with tracks := v }) <$> Json.wantList Track.record.read levels }]

structure Geometry where
  width : UInt32
  height : UInt32
  rate : Binary64
  frames : Option Nat
  deriving DecidableEq, Repr, Inhabited

/-- A rate given as a quotient or as a number; what cannot be read is zero, or one below the line. -/
def rateOf (s : String) : Binary64 :=
  match s.splitOn "/" with
  | num :: den :: more =>
    let den := String.intercalate "/" (den :: more)
    let num := (Binary64.ofNumeral? num).getD (.zero false)
    let den := (Binary64.ofNumeral? den).getD (.ofNat 1)
    if den.isPositive then num.div den else .zero false
  | _ => (Binary64.ofNumeral? s).getD (.zero false)

/-- The largest number of frames a stream may claim. -/
def maxFrames : Nat := twoTo 64 - 1

/-- The number of frames a stream claims, if it can be read. -/
def framesOf? (s : String) : Option Nat :=
  match Text.Unsigned.read maxFrames s with
  | .ok n => some n
  | .error _ => none

/-- The geometry of the first video stream; it has to have both sides. -/
def Report.geometry? (r : Report) : Option Geometry := do
  let t ← r.tracks.find? (·.kind = some "video")
  let width ← t.width
  let height ← t.height
  pure {
    width, height
    rate := match t.rate with
      | some s => rateOf s
      | none => .zero false
    frames := t.frames.bind framesOf? }

def Geometry.frameLength (g : Geometry) : Nat := Frame.expectedLength g.width g.height

end FrameStream.Video
