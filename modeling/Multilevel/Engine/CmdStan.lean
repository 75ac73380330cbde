import Multilevel.Draws.Posterior
import Multilevel.Run.Reader
import Multilevel.Value.Expect

/-!
# The interface of CmdStan

Requests to the engine become arguments of CmdStan, and what CmdStan returns becomes draws. CmdStan
gives its statistics draw by draw, under names that end in underscores; draws of an approximation
have no chains and get one.
-/
namespace Multilevel.CmdStan

/-- A settings value that is a record or nothing. -/
def optionalFields (given : Settings) (name : String) : Except Fault Value := do
  match ← Expect.field given name none (Expect.optional Expect.fields) with
  | some fields => return .record fields
  | none => return .null

/-- A settings value that is a text or nothing. -/
def optionalText (given : Settings) (name : String) : Except Fault Value := do
  match ← Expect.field given name none (Expect.optional Expect.text) with
  | some s => return .text s
  | none => return .null

/-- The arguments that a model is made with. An executable that exists is handed over unless
compiling is forced. -/
def modelArguments (given : Settings) (existing : List String) : Except Fault Settings := do
  Expect.knownNames ["stan_file", "exe_file", "force_compile", "stanc_options", "cpp_options",
    "user_header"] given
  let some programFile := given.lookup "stan_file" | throw .unsupported
  let programFile ← Expect.text programFile
  let executable ← Expect.field given "exe_file" none (Expect.optional Expect.text)
  let force ← Expect.field given "force_compile" false Expect.truth
  let translator ← optionalFields given "stanc_options"
  let compiler ← optionalFields given "cpp_options"
  let header ← optionalText given "user_header"
  let reused := executable.filter fun path => existing.contains path && !force
  return [("stan_file", .text programFile), ("exe_file", (reused.map .text).getD .null),
    ("force_compile", .bool force), ("stanc_options", translator), ("cpp_options", compiler),
    ("user_header", header)]

/-- Resolved initial values. -/
def checkInits : Value → Except Fault Unit
  | .null | .int _ | .bool _ | .float _ | .list [] | .list (.record _ :: _) => .ok ()
  | _ => .error .mistyped

/-- A list of integers, by its first element. -/
def checkNumbers : Value → Except Fault Unit
  | .list [] | .list (.int _ :: _) | .list (.bool _ :: _) => .ok ()
  | _ => .error .mistyped

/-- Checks the kind of an argument. -/
abbrev Check := Value → Except Fault Unit

/-- A check that a value is of an expected kind. -/
def kind {α : Type} (expect : Value → Except Fault α) : Check := fun value => do
  let _ ← expect value

/-- The arguments of sampling with their kinds. -/
def sampleKinds : List (String × Check) := [
  ("data", kind Expect.fields), ("chains", kind Expect.whole), ("chain_ids", checkNumbers),
  ("parallel_chains", kind Expect.whole), ("seed", kind (Expect.optional Expect.whole)),
  ("inits", checkInits), ("iter_warmup", kind Expect.whole), ("iter_sampling", kind Expect.whole),
  ("thin", kind Expect.whole), ("control", kind Expect.fields), ("silent", kind Expect.truth)]

/-- The arguments of approximating with their kinds. -/
def variationalKinds : List (String × Check) := [
  ("data", kind Expect.fields), ("algorithm", kind Expect.text), ("iter", kind Expect.whole),
  ("output_samples", kind Expect.whole), ("seed", kind (Expect.optional Expect.whole)),
  ("inits", checkInits), ("silent", kind Expect.truth)]

/-- Checks that all arguments are there and of their kinds. -/
def checkAll (kinds : List (String × Check)) (given : Settings) : Except Fault Unit := do
  if kinds.any fun (name, _) => (given.lookup name).isNone then throw .unsupported
  kinds.forM fun (name, check) => check ((given.lookup name).getD .null)

/-- Settings put together, no name of which may occur twice. -/
def joined (parts : List Settings) : Except Fault Settings :=
  let all := parts.flatten
  let names := all.map Prod.fst
  if names.eraseDups.length = names.length then .ok all else .error .unsupported

/-- The given settings under some names, in the order of the names. -/
def pick (given : Settings) (names : List String) : Settings :=
  names.filterMap fun name => (given.lookup name).map fun value => (name, value)

/-- Whether the console is not shown. -/
def isSilent (given : Settings) : Bool := (given.lookup "silent").any Value.truthy

/-- The arguments that CmdStan samples with. -/
def sampleArguments (given : Settings) : Except Fault Settings := do
  checkAll sampleKinds given
  let control ← Expect.field given "control" [] Expect.fields
  joined [
    pick given ["data", "chains", "chain_ids", "parallel_chains", "seed", "inits", "iter_warmup",
      "iter_sampling", "thin"],
    [("show_progress", .bool (!isSilent given)), ("show_console", .bool false)],
    control, Entries.without given (sampleKinds.map Prod.fst)]

/-- The arguments that CmdStan approximates with. -/
def variationalArguments (given : Settings) : Except Fault Settings := do
  checkAll variationalKinds given
  joined [
    pick given ["data", "algorithm", "iter", "output_samples", "seed", "inits"],
    [("show_console", .bool (!isSilent given))],
    Entries.without given (variationalKinds.map Prod.fst)]

/-- The name of a statistic without the underscores at its end. -/
def statisticName (name : String) : String :=
  String.ofList (name.toList.reverse.dropWhile (· = '_')).reverse

/-- An array of draws and chains, chain by chain. -/
def byChain (a : DrawArray Float) : DrawArray Float :=
  let size (dim : String) : Nat := (a.dims.lookup dim).getD 0
  ⟨[(chainDim, size chainDim), (drawDim, size drawDim)],
    ((List.range (size chainDim)).flatMap fun chain =>
      (List.range (size drawDim)).filterMap fun draw =>
        a.get? fun name => if name = chainDim then chain else draw).toArray⟩

/-- Statistics, given draw by draw, under their names. -/
def statistics (all : List (String × DrawArray Float)) : Except Fault (Dataset Float) :=
  Dataset.make (Entries.putAll [] (all.map fun (name, a) => (statisticName name, byChain a)))

/-- The draws of a sampling run, whose chains get the numbers asked for. -/
def sampled (numbers : List Int) (draws : Dataset Float)
    (all : List (String × DrawArray Float)) : Except Fault (Posterior Float) := do
  let stats ← statistics all
  if [draws, stats].any fun d => (d.sizeOf? chainDim).any (· ≠ numbers.length) then
    throw .unconvertible
  if (stats.sizeOf? drawDim).any fun count => draws.sizeOf? drawDim ≠ some count then
    throw .unconvertible
  return ⟨numbers, draws, stats⟩

/-- The draws of an approximation as those of one chain. -/
def approximated (draws : Dataset Float) (columns : List (String × List Float)) :
    Except Fault (Posterior Float) := do
  let stats ← statistics ((columns.filter fun (name, _) => name.endsWith "__").map
    fun (name, values) => (name, ⟨[(drawDim, values.length), (chainDim, 1)], values.toArray⟩))
  let arrays := draws.arrays.map fun (name, a) =>
    (name, { a with dims := (chainDim, 1) :: a.dims })
  return ⟨[1], { draws with arrays }, stats⟩

end Multilevel.CmdStan
