import Multilevel.Fit.Run

/-!
# Sessions

A session keeps what outlives a single call: the options, the registered functions of initial
values, the workspace, and fits and models under names. A temporary folder lasts as long as a model
that was built in it is kept.
-/
namespace Multilevel

/-- What is kept under a name. -/
inductive KeptObject where
  | fit (f : Fit)
  | model (c : CompiledModel)

/-- The model of a kept object. -/
def KeptObject.compiled : KeptObject → CompiledModel
  | fit f => f.compiled
  | model c => c

/-- A session. -/
structure Session where
  settings : SessionSettings := {}
  workspace : Workspace := {}
  kept : List (String × KeptObject) := []

/-- How work of a session ended. -/
structure Performed (α : Type) where
  outcome : Except Failure α
  /-- The requests that the engine received. -/
  calls : List EngineCall
  warnings : List Warning
  /-- The lines that reached the console. -/
  console : List String

namespace Session

/-- The object kept under a name. -/
def object (s : Session) (name : String) : Except Fault KeptObject :=
  match s.kept.lookup name with
  | some o => .ok o
  | none => .error .notStored

/-- The fit kept under a name. -/
def fit (s : Session) (name : String) : Except Fault Fit := do
  match ← s.object name with
  | .fit f => return f
  | .model _ => throw .unknownAttribute

/-- The model kept under a name. -/
def model (s : Session) (name : String) : Except Fault CompiledModel := do
  match ← s.object name with
  | .model c => return c
  | .fit _ => throw .unknownAttribute

/-- The place of a temporary folder. -/
def temporaryPlace (number : Nat) : Path.Place := Path.place s!"/tmp/{number}"

/-- Whether a kept model was built in a temporary folder. -/
def needs (s : Session) (number : Nat) : Bool :=
  s.kept.any fun (_, o) => o.compiled.handle.isSome &&
    (temporaryPlace number).isPrefixOf (Path.place o.compiled.programFile)

/-- The session without the temporary folders that no kept model was built in. -/
def sweep (s : Session) : Session :=
  let idle := (List.range s.workspace.temporaries).filter fun number => !s.needs number
  let disk := idle.foldl (fun d number => d.erase (temporaryPlace number)) s.workspace.disk
  { s with workspace := { s.workspace with disk } }

/-- The session that keeps an object under a name, if one is given. -/
def keep (s : Session) (name : Option String) (o : KeptObject) : Session :=
  match name with
  | some name => { s with kept := Entries.put s.kept name o }
  | none => s

/-- Performs work: its outcome, what the engine, the console and the caller got to see of it, and
the session afterwards. -/
def perform {α : Type} (s : Session) (work : Work α) : Performed α × Session :=
  let start := { s.workspace with
    calls := [], warnings := [], log := { s.workspace.log with deliveries := [] } }
  let (outcome, w) := work.run start
  (⟨outcome, w.calls, w.warnings, (w.log.arrived .console).map LogRecord.line⟩,
    { s with workspace := w })

end Session

end Multilevel
