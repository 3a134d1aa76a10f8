import FrameStream.Image.Encoder
import FrameStream.Image.Jpeg.Entropy
import FrameStream.Image.Jpeg.Transform

/-!
# Pictures as baseline JPEG

Full colour resolution, quality 90, no restart markers. A picture whose sides are no multiple of eight is
continued past its edge with the nearest pixel.
-/

namespace FrameStream.Image.Jpeg

/-- A picture of packed red, green and blue bytes. -/
structure Picture where
  width : Nat
  height : Nat
  data : Array UInt8

/-- The largest side that the format can say. -/
def maxSide : Nat := 65535

/-- A colour as brightness and two differences. -/
structure Colour where
  y : Int
  cb : Int
  cr : Int
  deriving Inhabited

/-- The weights are those of the standard in parts of 65536. -/
def Colour.ofRgb (r g b : Int) : Colour where
  y := (19595 * r + 38469 * g + 7471 * b + 32767) >>> (16 : Nat)
  cb := (-11059 * r - 21709 * g + 32768 * b + 8388608 + 32767) >>> (16 : Nat)
  cr := (32768 * r - 27439 * g - 5329 * b + 8388608 + 32767) >>> (16 : Nat)

/-- The pixel at `(x, y)`, or the nearest one inside. -/
def Picture.pixel (p : Picture) (x y : Nat) : Colour :=
  let i := (min y (p.height - 1) * p.width + min x (p.width - 1)) * 3
  let byte (k : Nat) : Int := (p.data.getD k 0).toNat
  .ofRgb (byte i) (byte (i + 1)) (byte (i + 2))

/-- The block whose first pixel is `(x, y)`. -/
def Picture.block (p : Picture) (x y : Nat) : Eight (Eight Colour) :=
  .ofFn fun j => .ofFn fun i => p.pixel (x + i) (y + j)

/-- The quantized coefficients of a block of samples, in diagonal order. -/
def coefficients (quantizers : List Nat) (block : Eight (Eight Int)) : List Int :=
  let cs := (transform block).toList.flatMap Eight.toList
  inDiagonal (List.zipWith quantize cs quantizers)

/-- A component of the colours: what it measures, and its tables. -/
structure Component where
  sample : Colour → Int
  quantizers : List Nat
  dc : Array Code
  ac : Array Code

def components : List Component :=
  let lumaDc := lumaDc.codes
  let lumaAc := lumaAc.codes
  let chromaDc := chromaDc.codes
  let chromaAc := chromaAc.codes
  [⟨Colour.y, lumaQuantizers, lumaDc, lumaAc⟩, ⟨Colour.cb, chromaQuantizers, chromaDc, chromaAc⟩,
    ⟨Colour.cr, chromaQuantizers, chromaDc, chromaAc⟩]

/-- One block of every component, with the averages of the blocks before. -/
def componentCodes (block : Eight (Eight Colour)) : List Component → List Int → List Code × List Int
  | c :: cs, last :: lasts =>
    let ks := coefficients c.quantizers (block.map (·.map c.sample))
    let (codes, averages) := componentCodes block cs lasts
    (blockCodes c.dc c.ac last ks ++ codes, ks.headD 0 :: averages)
  | _, _ => ([], [])

/-- The corners of the blocks, row by row. -/
def corners (width height : Nat) : List (Nat × Nat) :=
  (List.range ((height + 7) / 8)).flatMap fun j =>
    (List.range ((width + 7) / 8)).map fun i => (i * 8, j * 8)

/-- The codes of a picture, the lists of its blocks last first. -/
def scanCodes (p : Picture) : List Code :=
  let cs := components
  let (codes, _) := (corners p.width p.height).foldl
    (fun (acc : List (List Code) × List Int) corner =>
      let (block, averages) := componentCodes (p.block corner.1 corner.2) cs acc.2
      (block :: acc.1, averages))
    ([], [0, 0, 0])
  codes.reverse.flatten

def word16 (n : Nat) : Bytes := [.ofNat (n / 256), .ofNat n]

/-- A segment: its marker, its length, its data. -/
def segment (marker : UInt8) (data : Bytes) : Bytes :=
  0xFF :: marker :: word16 (data.length + 2) ++ data

def quantizerSegment (id : UInt8) (quantizers : List Nat) : Bytes :=
  segment 0xDB (id :: (inDiagonal quantizers).map .ofNat)

def codeSegment (id : UInt8) (t : CodeTable) : Bytes :=
  segment 0xC4 (id :: t.counts.map .ofNat ++ t.symbols.map .ofNat)

def header (width height : Nat) : Bytes :=
  [0xFF, 0xD8] ++
  segment 0xE0 [0x4A, 0x46, 0x49, 0x46, 0, 1, 2, 0, 0, 1, 0, 1, 0, 0] ++
  segment 0xC0 (0x08 :: word16 height ++ word16 width ++
    [0x03, 0x01, 0x11, 0x00, 0x02, 0x11, 0x01, 0x03, 0x11, 0x01]) ++
  quantizerSegment 0 lumaQuantizers ++ quantizerSegment 1 chromaQuantizers ++
  codeSegment 0x00 lumaDc ++ codeSegment 0x10 lumaAc ++ codeSegment 0x01 chromaDc ++
  codeSegment 0x11 chromaAc ++
  segment 0xDA [0x03, 0x01, 0x00, 0x02, 0x11, 0x03, 0x11, 0x00, 0x3F, 0x00]

def encode (p : Picture) : Bytes :=
  header p.width p.height ++ pack (scanCodes p) ++ [0xFF, 0xD9]

structure SizeError where
  width : Nat
  height : Nat

def SizeError.message (e : SizeError) : String :=
  "Format error encoding Jpeg:\nInvalid image size (" ++ toString e.width ++ " x " ++
    toString e.height ++ ") to encode as JPEG: width and height must be >= 1 and <= 65535"

/-- The file of a picture whose sides the format can say. -/
def encode? (p : Picture) : Except SizeError Bytes :=
  if p.width = 0 ∨ p.height = 0 ∨ maxSide < p.width ∨ maxSide < p.height then
    .error ⟨p.width, p.height⟩
  else .ok (encode p)

/-- What callers get. A number of bytes other than the sides ask for breaks the call down; what the runtime adds
to its report, such as the number of the task, differs from run to run and is left out. -/
def encoder : Encoder := fun data width height =>
  if data.length = width.toNat * height.toNat * 3 then
    match encode? ⟨width.toNat, height.toNat, data.toArray⟩ with
    | .ok file => .file file
    | .error e => .refused e.message
  else .brokenDown "task panicked"

end FrameStream.Image.Jpeg
