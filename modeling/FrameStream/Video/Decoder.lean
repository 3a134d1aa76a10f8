import FrameStream.Video.Source

/-!
# Decoders read piece by piece

A decoder writes its output in pieces of any length. A read takes one whole frame out of them, across their borders; if
no whole frame is left, what is left is lost, and the end of the decoder tells how the video ended.
-/

namespace FrameStream.Video

/-- The first `n` bytes of some pieces and the pieces left over, if there are so many bytes. -/
def takeExact (n : Nat) : List Bytes → Option (Bytes × List Bytes)
  | [] => if n = 0 then some ([], []) else none
  | p :: ps =>
    if n ≤ p.length then some (p.take n, p.drop n :: ps)
    else (takeExact (n - p.length) ps).map fun (data, rest) => (p ++ data, rest)

/-- A decoder that was started: the pieces it has still to write, and how it will end. -/
structure Decoder where
  reference : String
  geometry : Geometry
  pieces : List Bytes
  status : ExitStatus
  deriving DecidableEq, Repr

namespace Decoder

def read (d : Decoder) : ReadOutcome × Decoder :=
  match takeExact d.geometry.frameLength d.pieces with
  | some (data, rest) => (.frame ⟨d.geometry.width, d.geometry.height, data⟩, { d with pieces := rest })
  | none => (afterOutput d.reference d.status, { d with pieces := [] })

/-- What read `k` gives, counted from zero. -/
def readAt (d : Decoder) : Nat → ReadOutcome
  | 0 => d.read.1
  | k + 1 => d.read.2.readAt k

end Decoder
end FrameStream.Video
