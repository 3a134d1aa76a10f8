import FrameStream.Bytes

/-!
# Frames

A frame is a picture of packed red, green and blue bytes, row by row. Its length is checked against its
dimensions in 64-bit arithmetic. The arithmetic is that of a build without overflow checks, in which a product
beyond 64 bits wraps around. A build with such checks breaks down at such a product instead; for all others the
two builds agree (`Frame.expectedLength_eq`).
-/

namespace FrameStream

/-- The position of a unit within its job, from zero. -/
abbrev SequenceIndex := Nat

structure Frame where
  width : UInt32
  height : UInt32
  data : Bytes
  deriving DecidableEq, Repr, Inhabited

namespace Frame

def channels : Nat := 3

/-- The bytes a picture of these dimensions takes, in 64-bit arithmetic without overflow checks. -/
def expectedLength (width height : UInt32) : Nat :=
  (width.toUInt64 * height.toUInt64 * UInt64.ofNat channels).toNat

/-- The length is the product of the sides and channels as long as that stays below 64 bits, in every build. -/
theorem expectedLength_eq {width height : UInt32} (h : width.toNat * height.toNat * 3 < UInt64.size) :
    expectedLength width height = width.toNat * height.toNat * 3 := by
  have harea : width.toNat * height.toNat < UInt64.size := Nat.lt_of_le_of_lt (Nat.le_mul_of_pos_right _ (by decide)) h
  have hchannels : (UInt64.ofNat channels).toNat = 3 := rfl
  have hmul : ∀ a b : UInt64, a.toNat * b.toNat < UInt64.size → (a * b).toNat = a.toNat * b.toNat := fun a b hlt =>
    (UInt64.toNat_mul a b).trans (Nat.mod_eq_of_lt hlt)
  have hsides : (width.toUInt64 * height.toUInt64).toNat = width.toNat * height.toNat := hmul _ _ harea
  rw [expectedLength, hmul _ _ (by rw [hsides, hchannels]; exact h), hsides, hchannels]

/-- The frame has an area, and as many bytes as it takes. -/
def wellFormed (f : Frame) : Bool :=
  0 < f.width && 0 < f.height && f.data.length == expectedLength f.width f.height

end Frame

structure WorkUnit where
  index : SequenceIndex
  frame : Frame
  deriving DecidableEq, Repr, Inhabited

end FrameStream
