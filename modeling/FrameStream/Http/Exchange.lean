import FrameStream.Json.Text
import FrameStream.StreamError

/-!
# Requests and responses

A header is found by its name in any case, and the first of several counts. A response with a body says how
long it is and what it holds.
-/

namespace FrameStream.Http

abbrev Headers := List (String × String)

def lower (s : String) : String := String.ofList (s.toList.map Char.toLower)

def Headers.get? (hs : Headers) (name : String) : Option String :=
  (hs.find? fun h => lower h.1 = name).map (·.2)

structure Request where
  method : String
  target : String
  headers : Headers

structure Response where
  status : Nat
  headers : Headers := []
  body : String := ""

namespace Response

def bodyHeaders (kind body : String) : Headers :=
  [("content-type", kind), ("content-length", toString body.utf8ByteSize)]

def json (status : Nat) (v : Json) : Response :=
  { status, headers := bodyHeaders "application/json" v.text, body := v.text }

def text (status : Nat) (body : String) : Response :=
  { status, headers := bodyHeaders "text/plain; charset=utf-8" body, body }

end Response

def errorStatus : StreamError → Nat
  | .invalid _ => 400
  | .unavailable _ _ => 422
  | .missing _ _ => 404
  | .internal _ => 500

/-- The code that programs tell errors apart by. -/
def errorCode : StreamError → String
  | .invalid _ => "VALIDATION_ERROR"
  | .unavailable _ _ => "RESOURCE_UNAVAILABLE"
  | .missing _ _ => "NOT_FOUND"
  | .internal _ => "INTERNAL_ERROR"

/-- What people are told; the cause of an internal error is kept back. -/
def errorText : StreamError → String
  | .invalid reason => reason
  | .unavailable reference reason => reference ++ ": " ++ reason
  | .missing entity name => entity ++ " '" ++ name ++ "' not found"
  | .internal _ => "An internal error occurred"

def Response.error (e : StreamError) : Response :=
  .json (errorStatus e) (.object [("code", .string (errorCode e)), ("error", .string (errorText e))])

end FrameStream.Http
