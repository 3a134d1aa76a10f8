import FrameStream.Http.Origins
import FrameStream.Http.Target
import FrameStream.Registry

/-!
# Answers

The health of the server, the models it has, and the upgrade of a connection to a channel. What a browser
asks beforehand is answered for every path alike; every other answer carries the id of its request.
-/

namespace FrameStream.Http

def version : String := "0.1.0"

structure Server where
  registry : Registry
  /-- The channels that are open. -/
  channels : Nat
  origins : Origins
  /-- Whether a connection can be taken over. -/
  upgradable : Bool := false

/-- A value in the envelope of every answer. -/
def enveloped (v : Json) : Json := .object [("data", v)]

def health (s : Server) : Response :=
  .json 200 (.object [("status", .string "ok"), ("version", .string version), ("channels", .nat s.channels)])

def modelNames (s : Server) : Response := .json 200 (enveloped (.array (s.registry.names.map .string)))

def model (s : Server) (segment : String) : Response :=
  match segmentText? segment with
  | none => .text 400 "Invalid URL: Invalid UTF-8 in `name`"
  | some name =>
    match s.registry.metadata name with
    | .ok m => .json 200 (enveloped m.json)
    | .error e => .error e

/-- Why a connection cannot become a channel. -/
inductive UpgradeError where
  | notGet
  | noConnection
  | noUpgrade
  | badVersion
  | noKey
  | notUpgradable
  deriving DecidableEq, Repr

def UpgradeError.response : UpgradeError → Response
  | .notGet => .text 405 "Request method must be `GET`"
  | .noConnection => .text 400 "Connection header did not include 'upgrade'"
  | .noUpgrade => .text 400 "`Upgrade` header did not include 'websocket'"
  | .badVersion => .text 400 "`Sec-WebSocket-Version` header did not include '13'"
  | .noKey => .text 400 "`Sec-WebSocket-Key` header missing"
  | .notUpgradable => .text 426 "WebSocket request couldn't be upgraded since no upgrade state was present"

/-- Whether a header has this value, in any case. -/
def Headers.has (hs : Headers) (name value : String) : Bool := (hs.get? name).map lower == some value

/-- Whether a header names this token somewhere, in any case. -/
def Headers.names (hs : Headers) (name token : String) : Bool :=
  match hs.get? name with
  | some v => 1 < ((lower v).splitOn token).length
  | none => false

/-- The first thing that keeps a connection from becoming a channel. -/
def upgradeError? (s : Server) (r : Request) : Option UpgradeError :=
  if r.method ≠ "GET" then some .notGet
  else if !r.headers.names "connection" "upgrade" then some .noConnection
  else if !r.headers.has "upgrade" "websocket" then some .noUpgrade
  else if !r.headers.has "sec-websocket-version" "13" then some .badVersion
  else if (r.headers.get? "sec-websocket-key").isNone then some .noKey
  else if !s.upgradable then some .notUpgradable
  else none

/-- What a client asks that wants a channel. -/
def handshake (target : String) : Request where
  method := "GET"
  target
  headers := [("connection", "Upgrade"), ("upgrade", "websocket"), ("sec-websocket-version", "13"),
    ("sec-websocket-key", "dGhlIHNhbXBsZSBub25jZQ==")]

/-- A connection becomes a channel, or is told why not. -/
def upgrade (s : Server) (r : Request) : Response :=
  match upgradeError? s r with
  | some e => e.response
  | none => { status := 101 }

def allowed : Headers := [("allow", "GET,HEAD"), ("content-length", "0")]

def routed (s : Server) (r : Request) : Response :=
  match route? (path r.target) with
  | none => { status := 404 }
  | some route =>
    if r.method = "GET" ∨ r.method = "HEAD" then
      match route with
      | .health => health s
      | .channel => upgrade s r
      | .models => modelNames s
      | .model segment => model s segment
    else { status := 405, headers := allowed }

/-- The answer to what a browser asks beforehand. -/
def preflight (r : Request) : Response :=
  { status := 200
    headers := Origins.permissions ++ if (route? (path r.target)).isSome then allowed else [] }

/-- The answer to a request; `freshId` is the id of one that brought none. -/
def respond (s : Server) (freshId : String) (r : Request) : Response :=
  let shared := s.origins.headers r.headers
  if r.method = "OPTIONS" then
    let answer := preflight r
    { answer with headers := shared ++ answer.headers }
  else
    let answer := routed s r
    let id := (r.headers.get? "x-request-id").getD freshId
    { answer with
      headers := shared ++ answer.headers ++ [("x-request-id", id)]
      body := if r.method = "HEAD" then "" else answer.body }

end FrameStream.Http
