import Multilevel.CommandLine.Options
import Multilevel.CommandLine.Report
import Multilevel.Fit.Run

/-!
# Fitting from a command line

The command fits a model to the table in a file and shows the summary of its draws.
-/
namespace Multilevel

/-- The arguments of the command. -/
structure FitCommand where
  /-- The file of the table. -/
  data : String
  formula : String
  family : String
  algorithm : String
  chains : Int
  iterations : Int
  warmup : Option Int
  cores : Option Int
  /-- Whether every chain runs as a future. -/
  future : Bool
  seed : Option Int
  /-- Where the fit is stored. -/
  file : Option String
  /-- The folder that the program is built in. -/
  folder : Option String
  /-- Where the program is written to. -/
  programFile : Option String
  /-- Where the summary is written to. -/
  summaryFile : Option String
  /-- Whether progress is shown. -/
  verbose : Bool
  deriving Repr

namespace FitCommand

/-- The name of the command. -/
def name : String := "hierstan-fit"

/-- The options of the command. -/
def options : List CommandOption := [
  ⟨["-h", "--help"], .help, false⟩,
  ⟨["--data"], .text, true⟩,
  ⟨["--formula"], .text, true⟩,
  ⟨["--family"], .choice (Distribution.all.map Distribution.name), false⟩,
  ⟨["--algorithm"], .choice ("sampling" :: variationalAlgorithms), false⟩,
  ⟨["--chains"], .whole, false⟩,
  ⟨["--iter"], .whole, false⟩,
  ⟨["--warmup"], .whole, false⟩,
  ⟨["--cores"], .whole, false⟩,
  ⟨["--future"], .flag, false⟩,
  ⟨["--seed"], .whole, false⟩,
  ⟨["--file"], .text, false⟩,
  ⟨["--output_dir"], .text, false⟩,
  ⟨["--save_model"], .text, false⟩,
  ⟨["--summary"], .text, false⟩,
  ⟨["--verbose"], .flag, false⟩]

/-- The command that values describe. -/
def ofValues (v : CommandValues) : FitCommand where
  data := (v.text? "--data").getD ""
  formula := (v.text? "--formula").getD ""
  family := (v.text? "--family").getD Distribution.gaussian.name
  algorithm := (v.text? "--algorithm").getD "sampling"
  chains := (v.whole? "--chains").getD 4
  iterations := (v.whole? "--iter").getD 2000
  warmup := v.whole? "--warmup"
  cores := v.whole? "--cores"
  future := v.has "--future"
  seed := v.whole? "--seed"
  file := v.text? "--file"
  folder := v.text? "--output_dir"
  programFile := v.text? "--save_model"
  summaryFile := v.text? "--summary"
  verbose := v.has "--verbose"

/-- Reads the command from its words. -/
def read (words : List String) : Except CommandStop FitCommand :=
  (CommandValues.read options words).map ofValues

/-- The line that tells how the command is used. -/
def usage : String :=
  "usage: " ++ name ++ " " ++ " ".intercalate (options.map CommandOption.usage)

/-- The line that reports a mistake in the words. -/
def errorLine (e : UsageError) : String := name ++ ": error: " ++ e.message

/-- The arguments of the fit that the command asks for. -/
def arguments (c : FitCommand) (table : Frame) : FitArguments where
  model := {
    formula := some c.formula
    data := some (.table table)
    family := some (.named c.family) }
  run := {
    algorithm := c.algorithm
    chains := some (.int c.chains)
    iterations := .int c.iterations
    warmup := c.warmup.map .int
    cores := c.cores.map .int
    future := if c.future then some true else none
    seed := c.seed.map .int
    silent := !c.verbose }
  programFile := c.programFile
  file := c.file
  folder := c.folder

/-- The table in the file of the data. -/
def table (c : FitCommand) : Work Frame := do
  match ← Work.file? c.data with
  | none => refuse Fault.missingFile
  | some content =>
    if c.chains ≤ 0 || c.iterations ≤ 0 then refuse Fault.unconvertible
    match content with
    | .text text => Work.check (TableText.read text)
    | _ => refuse Fault.unconvertible

/-- Fits the model and summarises its draws. -/
def summarise (c : FitCommand) (engine : Engine) (session : SessionSettings) :
    Work SummaryTable := do
  let table ← c.table
  let f ← (c.arguments table).fit engine session
  Work.check (f.summary SummaryTable.standardQuantiles)

/-- Writes a summary where it is asked for; its folder must exist. -/
def store (c : FitCommand) (t : SummaryTable) : Work Unit := do
  if let some path := c.summaryFile then
    match ← Work.find? (Path.parent path) with
    | some .folder => Work.write path (.text t.fileText)
    | _ => refuse Fault.missingFolder

/-- The line that reports a failure. -/
def failureLine (e : Failure) : String := name ++ ": " ++ e.text

/-- A workspace that holds the text of the table, if there is one, and the folders of the files
that the command names. -/
def workspace (c : FitCommand) (table : Option String) : Except Fault Workspace := do
  let paths := c.data :: (c.programFile.toList ++ c.summaryFile.toList)
  let disk ← paths.foldlM (fun (d : Disk) path => d.makeFolders (Path.place (Path.parent path))) {}
  match table with
  | some text => return { disk := ← disk.write (Path.place c.data) (.text text) }
  | none => return { disk }

/-- What the command shows, and how it ends. -/
structure Shown where
  output : String
  failure : Option Failure

/-- Runs the command on a workspace. -/
def run (c : FitCommand) (engine : Engine) (session : SessionSettings) (w : Workspace) :
    Shown × Workspace :=
  match (c.summarise engine session).run w with
  | (.error e, w) => (⟨"", some e⟩, w)
  | (.ok t, w) =>
    match (c.store t).run w with
    | (.error e, w) => (⟨t.text ++ "\n", some e⟩, w)
    | (.ok (), w) => (⟨t.text ++ "\n", none⟩, w)

end FitCommand

end Multilevel
