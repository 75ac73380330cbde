import Multilevel.Store.Workspace
import Multilevel.Value.Expect

/-!
# Building programs

A program is written into its folder under a name made from its identity, so that an executable
that was built before is found again. What the engine says while it builds is collected and, unless
the user gave options, kept off the console. A model that was stored without its executable gets
one again from the same files.
-/
namespace Multilevel

/-- The arguments of a build. -/
structure BuildArguments where
  /-- The text of the program. -/
  source : String
  /-- The options that the user gives. -/
  settings : Settings := []
  /-- The folder of the program. -/
  folder : Option String := none
  /-- Whether the executable is kept. -/
  keep : Bool := true

/-- The arguments of a build that loose values describe. -/
def BuildArguments.ofGiven (given : Settings) : Except Fault BuildArguments := do
  return {
    source := ← Expect.text ((given.lookup "source").getD .null)
    settings := (← Expect.field given "options" none (Expect.optional Expect.fields)).getD []
    folder := ← Expect.field given "output_dir" none (Expect.optional Expect.text)
    keep := ← Expect.field given "save_dso" true Expect.truth }

namespace Engine

/-- Writes the text of a program, unless the file has it already. -/
def writeProgram (path source : String) : Work Unit := do
  match ← Work.file? path with
  | some (.text found) => if found != source then Work.write path (.text source)
  | _ => Work.write path (.text source)

/-- The text that a file holds; none if it holds no text. -/
def programAt (path : String) : Work String := do
  match ← Work.file? path with
  | some (.text found) => return found
  | _ => return ""

/-- The executable at a path, if there is anything: a file that the library did not write counts
as what the request would build. -/
def executableAt? (request : CompileRequest) (program : String) : Work (Option Executable) := do
  match ← Work.find? request.executableFile with
  | none => return none
  | some (.file (.executable e)) => return some e
  | some _ => return some ⟨program, request.translator, request.compiler, request.header⟩

/-- Has the engine make an executable, and stores it if it is new. -/
def makeExecutable (engine : Engine) (request : CompileRequest) :
    Work (Except EngineError Executable) := do
  let program ← programAt request.programFile
  let found ← executableAt? request program
  let reused := found.isSome && !request.force
  Work.note (.compile request reused)
  let made := engine.compile request program (if reused then found else none)
  Work.writeLog made.log
  if let .ok executable := made.outcome then
    if !reused then Work.write request.executableFile (.executable executable)
  return made.outcome

/-- Has the engine make an executable and collects what it says. Failures that are of a wrapped
kind show what it said. -/
def captureExecutable (engine : Engine) (request : CompileRequest) (silent reloading : Bool) :
    Work (Executable × List String) := do
  let (outcome, lines) ← Work.capture silent (engine.makeExecutable request)
  match ← Work.check outcome with
  | .ok executable => return (executable, lines)
  | .error e =>
    if e.kind.wrapped then refuse (⟨reloading, e.text, "\n".intercalate lines⟩ : BuildError)
    else refuse e

/-- The folder that programs are built in: a temporary one if executables are not to be kept, the
given one, or one that all models of the user share. -/
def buildFolder (folder : Option String) (keep : Bool) : Work String := do
  if !keep then
    Work.warn .discardArgument
    Work.makeTemporary
  else
    match folder with
    | some given => return given
    | none => return Path.join (← get).home ".cache/hierstan"

/-- Builds a program. -/
def build (engine : Engine) (a : BuildArguments) : Work CompiledModel := do
  let options ← BuildOptions.ofSettings a.settings
  let identity := options.identity a.source
  let stem := options.stem identity
  let folder ← buildFolder a.folder a.keep
  Work.makeFolders folder
  let programFile := Path.join folder (stem ++ ".stan")
  let executableFile := Path.join folder stem
  writeProgram programFile a.source
  let request := ⟨programFile, executableFile, options.force, options.translator,
    options.compiler, options.header⟩
  let (executable, lines) ← engine.captureExecutable request a.settings.isEmpty false
  return ⟨identity, a.source, programFile, executableFile, lines, options, some executable⟩

/-- The model with an executable: the one that it has, or one made from its files. -/
def reload (engine : Engine) (c : CompiledModel) : Work (CompiledModel × Executable) := do
  match c.handle with
  | some executable => return (c, executable)
  | none =>
    Work.makeFolders (Path.parent c.programFile)
    writeProgram c.programFile c.source
    let request := ⟨c.programFile, c.executableFile, false, c.options.translator,
      c.options.compiler, c.options.header⟩
    let (executable, _) ← engine.captureExecutable request true true
    return ({ c with handle := some executable }, executable)

end Engine

end Multilevel
