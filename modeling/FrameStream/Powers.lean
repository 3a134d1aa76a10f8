/-!
# Powers

The powers that numbers on the wire and on the machine are made of.
-/

namespace FrameStream

abbrev twoTo (n : Nat) : Nat := Nat.pow 2 n

abbrev tenTo (n : Nat) : Nat := Nat.pow 10 n

end FrameStream
