import Multilevel.CommandLine.Fit
import Multilevel.Engine.Rehearsal

/-!
# The command

Reads the table from its file, rehearses the fit and writes the programs and the summary. What is
asked of the engine is rehearsed only, so neither fits nor executables outlive the command.
-/

namespace Multilevel.FitCommand

/-- The text of a file, unless it cannot be read. -/
def readText? (path : String) : IO (Option String) := do
  try
    return some (← IO.FS.readFile path)
  catch _ =>
    return none

/-- Writes the folders and the texts that a workspace holds. -/
def writeOut (disk : Disk) : IO Unit := do
  disk.folders.forM fun path => IO.FS.createDirAll path
  disk.texts.forM fun (path, text) => IO.FS.writeFile path text

/-- What the environment tells of the settings of runs. -/
def readSettings : IO (Except Failure SessionSettings) := do
  let options := RunOptions.ofEnvironment (← IO.getEnv "HIERSTAN_CORES")
    (← IO.getEnv "HIERSTAN_FUTURE")
  return options.map fun options => { options }

/-- Reports a failure. -/
def report (e : Failure) : IO UInt32 := do
  IO.eprintln (failureLine e)
  return 1

/-- Runs the command and tells how it ended. -/
def perform (c : FitCommand) : IO UInt32 := do
  let home ← IO.getEnv "HOME"
  match ← readSettings, c.workspace (← readText? c.data) with
  | .error e, _ => report e
  | _, .error fault => report (.fault fault)
  | .ok settings, .ok start =>
    let (shown, finish) :=
      c.run (Rehearsal.engine {}) settings { start with home := home.getD "." }
    finish.warnings.forM fun w => IO.eprintln w.message
    writeOut finish.disk
    IO.print shown.output
    match shown.failure with
    | none => return 0
    | some e => report e

end Multilevel.FitCommand

open Multilevel in
/-- Fits the model that the words describe. -/
def main (words : List String) : IO UInt32 := do
  match FitCommand.read words with
  | .error .help =>
    IO.println FitCommand.usage
    return 0
  | .error (.wrong e) =>
    IO.eprintln FitCommand.usage
    IO.eprintln (FitCommand.errorLine e)
    return 2
  | .ok c => c.perform
