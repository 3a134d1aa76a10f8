import FrameStream.Http.Exchange

/-!
# Requests from other origins

A browser lets a page of a listed origin read a response that repeats the origin. The list is checked once,
before the server starts.
-/

namespace FrameStream.Http

/-- Why a list of origins cannot be used. -/
inductive OriginError where
  | notAHeader (origin : String)
  | wildcard
  deriving DecidableEq, Repr

def OriginError.message : OriginError → String
  | .notAHeader origin => "Invalid CORS origin '" ++ origin ++ "': failed to parse header value"
  | .wildcard =>
    "Wildcard origin (`*`) cannot be passed to `AllowOrigin::list`. Use `AllowOrigin::any()` instead"

/-- A character that a header value may hold: no control but the tab. -/
def isHeaderChar (c : Char) : Bool := c = '\t' || (0x20 ≤ c.toNat && c.toNat ≠ 0x7F)

structure Origins where
  listed : List String

namespace Origins

/-- A list of origins, if every one can stand in a header and none is the wildcard. -/
def ofList (origins : List String) : Except OriginError Origins :=
  match origins.find? fun o => !o.toList.all isHeaderChar with
  | some o => .error (.notAHeader o)
  | none => if "*" ∈ origins then .error .wildcard else .ok ⟨origins⟩

def headers (o : Origins) (request : Headers) : Headers :=
  let allowed := match request.get? "origin" with
    | some origin => if origin ∈ o.listed then [("access-control-allow-origin", origin)] else []
    | none => []
  allowed ++ [("access-control-allow-credentials", "true"),
    ("vary", "origin, access-control-request-method, access-control-request-headers")]

/-- The headers that tell a browser what it may ask. -/
def permissions : Headers :=
  [("access-control-allow-methods", "GET,OPTIONS"), ("access-control-allow-headers", "content-type"),
    ("access-control-max-age", "3600")]

end Origins
end FrameStream.Http
