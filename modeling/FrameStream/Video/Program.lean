import FrameStream.Bytes

/-!
# Programs that are started

Starting a program fails, or it writes its output and ends with a code or by a signal.
-/

namespace FrameStream.Video

/-- Why a program could not be started. -/
inductive LaunchError where
  | missing
  | notExecutable
  deriving DecidableEq, Repr

def LaunchError.message : LaunchError → String
  | .missing => "No such file or directory (os error 2)"
  | .notExecutable => "Permission denied (os error 13)"

inductive ExitStatus where
  | code (n : Nat)
  | signal
  deriving DecidableEq, Repr

namespace ExitStatus

/-- Only the code zero is a success. -/
def success (s : ExitStatus) : Bool := s = .code 0

/-- The wording of a status: a program ended by a signal has no code. -/
def text : ExitStatus → String
  | .code n => "Some(" ++ toString n ++ ")"
  | .signal => "None"

end ExitStatus

/-- What a program that was started did. -/
structure ProgramRun where
  output : Bytes
  status : ExitStatus
  deriving DecidableEq, Repr

abbrev Program := Except LaunchError ProgramRun

end FrameStream.Video
