import FrameStream.Processor.Invert
import FrameStream.Resource
import FrameStream.Video.Probe
import FrameStream.Video.Program

/-!
# Videos as resources

Opening a video probes it for its geometry and starts a decoder, whose output is cut into frames. A frame
that the output does not fill is dropped; whether the video then ended or failed is told by how the decoder
ended.
-/

namespace FrameStream.Video

/-- Which paths are those of files, and the programs to probe and decode them with. -/
structure Source where
  isFile : String → Bool
  probe : Program
  decoder : Program

/-- What opening a video came to, and what the programs were started with. -/
structure Opening where
  result : Except StreamError Resource
  probeArguments : Option (List String) := none
  decoderArguments : Option (List String) := none

/-- What a probe is told about a file. -/
def probeArguments (reference : String) : List String :=
  ["-v", "quiet", "-print_format", "json", "-show_streams", "-select_streams", "v:0", reference]

/-- What a decoder is told about a file. -/
def decoderArguments (reference : String) : List String :=
  ["-v", "error", "-nostdin", "-i", reference, "-f", "rawvideo", "-pix_fmt", "rgb24", "-"]

/-- The arguments a program was started with, if it was. -/
def started (p : Program) (arguments : List String) : Option (List String) :=
  match p with
  | .ok _ => some arguments
  | .error _ => none

/-- The first `k` pieces of `n` bytes. -/
def cut (n : Nat) : Nat → Bytes → List Bytes
  | 0, _ => []
  | k + 1, bytes => bytes.take n :: cut n k (bytes.drop n)

/-- The frames in the output of a decoder. -/
def framesIn (g : Geometry) (output : Bytes) : List Frame :=
  (cut g.frameLength (output.length / g.frameLength) output).map fun data => ⟨g.width, g.height, data⟩

/-- What a read gives when the output has no further frame. -/
def afterOutput (reference : String) (status : ExitStatus) : ReadOutcome :=
  if status.success then .ended
  else .failed (.unavailable reference ("ffmpeg exited with " ++ status.text))

/-- The output of a decoder as a resource. -/
def resource (reference : String) (g : Geometry) (run : ProgramRun) : Resource where
  outcomes := (framesIn g run.output).map .frame
  thereafter := afterOutput reference run.status
  hint := g.frames

/-- The geometry that the output of a probe tells. -/
def geometry (reference : String) (run : ProgramRun) : Except StreamError Geometry :=
  if !run.status.success then
    .error (.unavailable reference ("ffprobe exited with " ++ run.status.text))
  else
    match Report.record.parse run.output with
    | .error f => .error (.unavailable reference ("unreadable ffprobe output: " ++ f.message run.output))
    | .ok report =>
      match report.geometry? with
      | none => .error (.unavailable reference "no video stream")
      | some g => .ok g

/-- The decoder takes sides from one to the largest of a video. -/
def Geometry.supported (g : Geometry) : Bool :=
  g.width ≠ 0 && g.height ≠ 0 && g.width.toNat ≤ Invert.maxFrameWidth &&
    g.height.toNat ≤ Invert.maxFrameHeight

/-- The wording for a geometry that is not supported. -/
def Geometry.unsupportedReason (g : Geometry) : String :=
  "unsupported resolution " ++ toString g.width.toNat ++ "x" ++ toString g.height.toNat ++ " (max " ++
    toString Invert.maxFrameWidth ++ "x" ++ toString Invert.maxFrameHeight ++ ")"

/-- Starts a decoder for a probed video. -/
def Source.decode (s : Source) (reference : String) (g : Geometry) : Opening :=
  match s.decoder with
  | .error e => { result := .error (.unavailable reference ("ffmpeg not runnable: " ++ e.message)) }
  | .ok run =>
    { result := .ok (resource reference g run), decoderArguments := some (decoderArguments reference) }

def Source.open (s : Source) (reference : String) : Opening :=
  if !s.isFile reference then { result := .error (.unavailable reference "Cannot open video file") }
  else
    match s.probe with
    | .error e => { result := .error (.unavailable reference ("ffprobe not runnable: " ++ e.message)) }
    | .ok run =>
      let probed := some (probeArguments reference)
      match geometry reference run with
      | .error e => { result := .error e, probeArguments := probed }
      | .ok g =>
        if g.supported then { s.decode reference g with probeArguments := probed }
        else { result := .error (.unavailable reference g.unsupportedReason), probeArguments := probed }

end FrameStream.Video
