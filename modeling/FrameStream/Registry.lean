import FrameStream.NameTable
import FrameStream.Processor.Echo
import FrameStream.Processor.Invert
import FrameStream.Request

/-!
# Registries of processors

Clients name a processor in any case; the registry keeps every name in lower case. A name registered twice
stands for the processor registered last.
-/

namespace FrameStream

structure Registry where
  table : NameTable Processor

namespace Registry

def empty : Registry := ⟨[]⟩

def register (r : Registry) (name : String) (p : Processor) : Registry :=
  ⟨r.table.insert (Unicode.lowercase name) p⟩

def builtins : Registry :=
  (empty.register Invert.name Invert.processor).register Echo.name Echo.processor

def get? (r : Registry) (name : String) : Option Processor := r.table.get? (Unicode.lowercase name)

def resolve (r : Registry) (name : String) : Except Refusal Processor :=
  match r.get? name with
  | some p => .ok p
  | none => .error (.unknownModel name)

/-- What clients are told about the processor under `name`. -/
def metadata (r : Registry) (name : String) : Except StreamError Metadata :=
  match r.get? name with
  | some p => .ok p.metadata
  | none => .error (.missing "Model" name)

def names (r : Registry) : List String := r.table.names

end Registry

/-- The job a request asks for and the processor for it, or why there is none. -/
def Request.accept (r : Request) (defaultModel : String) (registry : Registry) :
    Except Refusal (Job × Processor) := do
  let job ← r.validate defaultModel
  let p ← registry.resolve job.model
  pure (job, p)

end FrameStream
