import FrameStream.Processor
import FrameStream.Resource

/-!
# Scripted processors and resources

Stand-ins that do what a script says, so that a rehearsal always goes the same way.
-/

namespace FrameStream.Rehearsal

structure ScriptedProcessor where
  name : String
  /-- How long a unit takes. -/
  delay : Nat := 0
  /-- How long single units take. -/
  delays : List (SequenceIndex × Nat) := []
  /-- The units at which it breaks down. -/
  breakdowns : List SequenceIndex := []
  /-- The units that fail, and why. -/
  failures : List (SequenceIndex × String) := []
  /-- Why every other unit fails, if they do. -/
  failure : Option String := none
  /-- The payloads of single units. -/
  payloads : List (SequenceIndex × Json) := []

namespace ScriptedProcessor

/-- The payload of a unit: unless the script names another, the first byte of its frame. -/
def payload (p : ScriptedProcessor) (u : WorkUnit) : Json :=
  match p.payloads.lookup u.index with
  | some v => v
  | none =>
    .object [("tag", match u.frame.data.head? with
      | some b => .nat b.toNat
      | none => .null)]

/-- Breaking down comes before failing, and a failure of a single unit before that of all. -/
def outcome (p : ScriptedProcessor) (u : WorkUnit) : UnitOutcome :=
  if p.breakdowns.contains u.index then .aborted
  else
    match (p.failures.lookup u.index).orElse fun _ => p.failure with
    | some reason => .failed ⟨u.index, reason⟩
    | none => .done (p.payload u)

def processor (p : ScriptedProcessor) : Processor where
  metadata := { name := p.name, description := "test processor", inputs := [], outputs := [] }
  latency u := (p.delays.lookup u.index).getD p.delay
  process := p.outcome

end ScriptedProcessor

/-- A resource of a script: what opening it gives, and how long each read takes. -/
structure ScriptedResource where
  opening : Except StreamError Resource
  delay : Nat := 0

namespace ScriptedResource

/-- Some frames, and an error after them or the end. -/
def ofFrames (frames : List Frame) (last : Option StreamError) (hint : Option Nat) (delay : Nat) :
    ScriptedResource where
  opening := .ok { outcomes := frames.map .frame ++ last.toList.map .failed, hint }
  delay

/-- Resources under their references; the star stands for every other reference. -/
def lookup (resources : List (String × ScriptedResource)) (reference : String) : ScriptedResource :=
  match (resources.lookup reference).orElse fun _ => resources.lookup "*" with
  | some r => r
  | none => { opening := .error (.unavailable reference "No such file") }

end ScriptedResource
end FrameStream.Rehearsal
