import Multilevel.Store.Disk

/-!
# Work on a workspace

A workspace holds the files, the requests that the engine received, the logger of the engine and
the warnings issued. Work on it ends with a value or a failure; what was done before a failure
stays done.

A fit is looked up under the path of its file. What is there is returned if it is a fit; anything
else is reported by a warning and counts as nothing. A fit is stored without its executable and
remembers where it is stored.
-/
namespace Multilevel

/-- All that work reads and changes. -/
structure Workspace where
  disk : Disk := {}
  /-- The requests that the engine received, in order. -/
  calls : List EngineCall := []
  /-- The warnings issued, in order. -/
  warnings : List Warning := []
  log : LogState := {}
  /-- The folder of the user. -/
  home : String := "home"
  /-- How many temporary folders were made. -/
  temporaries : Nat := 0

/-- Work on a workspace. -/
abbrev Work := ExceptT Failure (StateM Workspace)

namespace Work

/-- Issues a warning. -/
def warn (warning : Warning) : Work Unit :=
  modify fun w => { w with warnings := w.warnings ++ [warning] }

/-- Issues the warnings of a computation and ends as it did. -/
def report {α : Type} (r : Reported α) : Work α := do
  r.warnings.forM warn
  MonadExcept.ofExcept r.outcome

/-- Ends as a computation without effects did. -/
def check {ε α : Type} [IsFailure ε] (r : Except ε α) : Work α :=
  match r with
  | .ok a => return a
  | .error e => refuse e

instance : MonadLiftT Reported Work := ⟨report⟩

instance {ε : Type} [IsFailure ε] : MonadLiftT (Except ε) Work := ⟨check⟩

/-- Notes a request that the engine receives. -/
def note (call : EngineCall) : Work Unit :=
  modify fun w => { w with calls := w.calls ++ [call] }

/-- What the file at a path holds. -/
def file? (path : String) : Work (Option FileContent) := do
  return (← get).disk.file? (Path.place path)

/-- What stands at a path. -/
def find? (path : String) : Work (Option DiskEntry) := do
  return (← get).disk.find? (Path.place path)

/-- Changes the disk, unless the change is refused. -/
def changeDisk (change : Disk → Except Fault Disk) : Work Unit := do
  let disk ← check (change (← get).disk)
  modify fun w => { w with disk }

/-- Writes a file. -/
def write (path : String) (content : FileContent) : Work Unit :=
  changeDisk fun d => d.write (Path.place path) content

/-- Makes a folder and the folders on the way to it. -/
def makeFolders (path : String) : Work Unit :=
  changeDisk fun d => d.makeFolders (Path.place path)

/-- Makes a temporary folder and gives its path. -/
def makeTemporary : Work String := do
  let number := (← get).temporaries
  modify fun w => { w with temporaries := number + 1 }
  let path := s!"/tmp/{number}"
  makeFolders path
  return path

/-- Writes records to the engine's log. -/
def writeLog (records : List LogRecord) : Work Unit :=
  modify fun w => { w with log := w.log.writeAll records }

/-- How work ends, and the lines that are written to the engine's log meanwhile. The logger is
restored however the work ends. -/
def capture {α : Type} (silent : Bool) (work : Work α) :
    Work (Except Failure α × List String) := do
  let (capture, log) := (← get).log.openCapture silent
  modify fun w => { w with log }
  let outcome ← ExceptT.lift (ExceptT.run work)
  let lines := (← get).log.messages capture
  modify fun w => { w with log := w.log.closeCapture capture }
  return (outcome, lines)

/-- The value or the failure of work on a workspace, and the workspace afterwards. -/
def run {α : Type} (work : Work α) (w : Workspace) : Except Failure α × Workspace :=
  (ExceptT.run work).run w

end Work

namespace Fit

/-- The fit stored under a file, if there is one. -/
def load? (file : String) : Work (Option Fit) := do
  let path := fitPath file
  match ← Work.find? path with
  | none => return none
  | some (.file (.fit f)) => return some (f.stored path)
  | some (.file (.object kind)) =>
    Work.warn (.notFit path kind)
    return none
  | some _ =>
    Work.warn (.unreadable path)
    return none

/-- Stores a fit and gives the fit that knows where it is stored. -/
def save (f : Fit) (file : String) : Work Fit := do
  let path := fitPath file
  Work.makeFolders (Path.parent path)
  Work.write path (.fit (f.stored path))
  return { f with file := some path }

end Fit

end Multilevel
