import FrameStream.Registry
import FrameStream.Service.Config

/-!
# Admission

A request becomes a job once it has passed every rule, its model is known, and its channel has taken the
acknowledgment.
-/

namespace FrameStream

/-- Why a request does not become a job. -/
inductive AdmissionError where
  /-- The request is refused; its key, if it has one. -/
  | invalid (key : Option String) (cause : StreamError)
  /-- Nobody took the acknowledgment. -/
  | channelClosed
  deriving DecidableEq, Repr

/-- The wording of an admission that failed. -/
def AdmissionError.message : AdmissionError → String
  | .invalid _ cause => cause.message
  | .channelClosed => "channel closed before the job was acknowledged"

/-- The job of a request and the processor for it; `taken` says whether the acknowledgment gets through. -/
def Request.admission (r : Request) (config : ServiceConfig) (registry : Registry) (taken : Bool) :
    Except AdmissionError (Job × Processor) :=
  match r.accept config.defaultModel registry with
  | .error refusal => .error (.invalid r.key refusal.error)
  | .ok admitted => if taken then .ok admitted else .error .channelClosed

end FrameStream
