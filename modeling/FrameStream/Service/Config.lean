import FrameStream.Processor.Invert

/-!
# What every job shares

The window of a job is the number of its units that may be out at once; a window of zero counts as one.
-/

namespace FrameStream

/-- The window a job has unless the service is told otherwise. -/
def defaultWindow : Nat := 8

structure ServiceConfig where
  window : Nat := defaultWindow
  /-- The model of a request that names none. -/
  defaultModel : String := Invert.name
  deriving DecidableEq, Repr, Inhabited

/-- The window in use, at least one. -/
def ServiceConfig.openWindow (c : ServiceConfig) : Nat := max c.window 1

end FrameStream
