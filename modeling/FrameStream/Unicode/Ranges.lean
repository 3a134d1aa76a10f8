/-!
# Sets of code points as ranges

A set is a list of closed ranges in ascending order.
-/

namespace FrameStream.Unicode

abbrev Ranges := List (Nat × Nat)

/-- Membership; the search stops at the first range that begins after `n`. -/
def Ranges.has : Ranges → Nat → Bool
  | [], _ => false
  | (low, high) :: rest, n => if n < low then false else if n ≤ high then true else Ranges.has rest n

end FrameStream.Unicode
