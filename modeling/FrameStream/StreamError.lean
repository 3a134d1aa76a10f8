/-!
# Errors of the service

Four kinds of trouble: a request that is not acceptable, a resource that cannot be read, a thing that was
asked for by a name nobody has, and a fault of the service itself. `StreamError.message` is the text a
client sees in a refusal or at the end of a stream.
-/

namespace FrameStream

inductive StreamError where
  | invalid (reason : String)
  | unavailable (reference reason : String)
  | missing (entity name : String)
  | internal (reason : String)
  deriving DecidableEq, Repr, Inhabited

namespace StreamError

def message : StreamError → String
  | .invalid reason => "Validation failed: " ++ reason
  | .unavailable reference reason => "Resource unavailable: " ++ reference ++ ": " ++ reason
  | .missing entity name => "Entity not found: " ++ entity ++ " named " ++ name
  | .internal reason => "Internal error: " ++ reason

end StreamError
end FrameStream
