import FrameStream.Binary64.Basic
import FrameStream.NameTable

/-!
# JSON values

A number written without fraction or exponent, and of at most 64 bits, stays a whole number; every other
number is a binary value. The members of an object read from a text are in the order of their names,
each name once with the value that came last.
-/

namespace FrameStream

inductive Json.Number where
  | whole (i : Int)
  | real (x : Binary64)
  deriving DecidableEq, Repr, Inhabited

inductive Json where
  | null
  | bool (b : Bool)
  | number (n : Json.Number)
  | string (s : String)
  | array (items : List Json)
  | object (members : List (String × Json))
  deriving Repr, Inhabited

namespace Json

/-- The largest whole number that stays whole. -/
def maxWhole : Nat := twoTo 64 - 1

def nat (n : Nat) : Json := .number (.whole n)

/-- The whole number a value holds, if it holds one that is not negative. -/
def natural? : Json → Option Nat
  | .number (.whole (.ofNat n)) => some n
  | _ => none

def get? (name : String) : Json → Option Json
  | .object ms => NameTable.get? name ms
  | _ => none

end Json
end FrameStream
