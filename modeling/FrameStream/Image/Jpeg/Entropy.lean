import FrameStream.Image.Jpeg.Tables
import FrameStream.Powers

/-!
# Codes and bits

A block becomes a list of codes: the difference of its average to the one before, then every other
coefficient with the run of zeros before it. `pack` writes codes one after the other into bytes.
-/

namespace FrameStream.Image.Jpeg

/-- The bits of a coefficient: as many as its size has; a negative one is counted from below. -/
def coefficientBits (v : Int) : Code :=
  let size := if v = 0 then 0 else v.natAbs.log2 + 1
  if v < 0 then ((v + Int.ofNat (twoTo size) - 1).toNat, size) else (v.toNat, size)

/-- The codes of the coefficients after the first; `run` zeros come before them. -/
def coefficientCodes (codes : Array Code) (run : Nat) : List Int → List Code
  | [] => if run = 0 then [] else [codes.getD 0 (0, 0)]
  | v :: vs =>
    if v = 0 then coefficientCodes codes (run + 1) vs
    else
      let bits := coefficientBits v
      List.replicate (run / 16) (codes.getD 0xF0 (0, 0)) ++
        codes.getD (run % 16 * 16 + bits.2) (0, 0) :: bits :: coefficientCodes codes 0 vs

/-- The codes of a block in diagonal order; `last` is the average of the block before. -/
def blockCodes (dc ac : Array Code) (last : Int) : List Int → List Code
  | [] => []
  | v :: vs =>
    let bits := coefficientBits (v - last)
    dc.getD bits.2 (0, 0) :: bits :: coefficientCodes ac 0 vs

/-- Bits on their way into bytes: fewer than eight are held, the bytes come last first. -/
structure BitWriter where
  held : Nat
  count : Nat
  bytes : Bytes

namespace BitWriter

/-- A byte of all ones is followed by a zero byte, so that it starts no marker. -/
def stuff (b : UInt8) (bytes : Bytes) : Bytes := if b = 0xFF then 0 :: b :: bytes else b :: bytes

/-- The whole bytes among `count` held bits, written out; at most `fuel` of them. -/
def flush : Nat → BitWriter → BitWriter
  | 0, w => w
  | fuel + 1, w =>
    if w.count < 8 then w
    else
      let b := w.held / twoTo (w.count - 8)
      flush fuel ⟨w.held % twoTo (w.count - 8), w.count - 8, stuff (.ofNat b) w.bytes⟩

def write (w : BitWriter) (c : Code) : BitWriter :=
  flush (c.2 / 8 + 1) ⟨w.held * twoTo c.2 + c.1, w.count + c.2, w.bytes⟩

end BitWriter

/-- Ones that fill up the last byte. -/
def padding : Code := (0x7F, 7)

/-- The bytes of a list of codes; what fills no byte in the end is dropped. -/
def pack (codes : List Code) : Bytes :=
  ((codes ++ [padding]).foldl BitWriter.write ⟨0, 0, []⟩).bytes.reverse

end FrameStream.Image.Jpeg
