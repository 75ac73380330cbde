import Multilevel.Draws.Posterior
import Multilevel.Engine.Error
import Multilevel.Engine.Log
import Multilevel.Program.BuildData
import Multilevel.Run.Config

/-!
# Engines

An engine turns programs into executables and runs them. All that the library knows of an engine
are three functions: what a request yields depends on the request, on the text of the program and
on the executable alone.
-/
namespace Multilevel

/-- An executable, by what it was built from. -/
structure Executable where
  /-- The text of the program. -/
  program : String
  /-- The options of the program's translator. -/
  translator : Settings
  /-- The options of the compiler. -/
  compiler : Settings
  /-- The header of the user. -/
  header : Value
  deriving Repr

/-- A request to make an executable. -/
structure CompileRequest where
  programFile : String
  executableFile : String
  /-- Whether an executable that exists is not reused. -/
  force : Bool
  /-- The options of the program's translator. -/
  translator : Settings
  /-- The options of the compiler. -/
  compiler : Settings
  /-- The header of the user. -/
  header : Value
  deriving Repr

/-- The arguments of a request under their names. -/
def CompileRequest.arguments (r : CompileRequest) : Settings :=
  [("stan_file", .text r.programFile), ("exe_file", .text r.executableFile),
    ("force_compile", .bool r.force), ("stanc_options", .record r.translator),
    ("cpp_options", .record r.compiler), ("user_header", r.header)]

/-- What comes of a request to make an executable. -/
structure Compilation where
  /-- The records that the engine wrote on the way. -/
  log : List LogRecord
  outcome : Except EngineError Executable

/-- A request to sample. -/
structure SampleRequest where
  /-- How many chains are run. -/
  chains : Whole
  /-- Their numbers. -/
  numbers : List Int
  /-- How many of them run at the same time. -/
  parallel : Whole
  seed : Option Whole
  inits : Inits
  warmup : Whole
  /-- Iterations of a chain after its warmup. -/
  iterations : Int
  thinning : Whole
  control : Settings
  /-- Whether progress is not shown. -/
  silent : Bool
  settings : Settings
  deriving Repr

/-- The arguments of a request under their names, besides the further settings. -/
def SampleRequest.arguments (r : SampleRequest) : Settings :=
  [("chains", r.chains.value), ("chain_ids", .list (r.numbers.map .int)),
    ("parallel_chains", r.parallel.value), ("seed", Whole.optionalValue r.seed), ("inits", r.inits.value),
    ("iter_warmup", r.warmup.value), ("iter_sampling", .int r.iterations),
    ("thin", r.thinning.value), ("control", .record r.control), ("silent", .bool r.silent)]

/-- A request to approximate. -/
structure VariationalRequest where
  algorithm : String
  iterations : Whole
  samples : Quantity
  seed : Option Whole
  inits : Inits
  /-- Whether the console is not shown. -/
  silent : Bool
  settings : Settings
  deriving Repr

/-- The arguments of a request under their names, besides the further settings. -/
def VariationalRequest.arguments (r : VariationalRequest) : Settings :=
  [("algorithm", .text r.algorithm), ("iter", r.iterations.value),
    ("output_samples", r.samples.value), ("seed", Whole.optionalValue r.seed), ("inits", r.inits.value),
    ("silent", .bool r.silent)]

/-- An engine. -/
structure Engine where
  /-- Makes an executable of the text of a program, given the executable that is there to be
  reused, if any. -/
  compile : CompileRequest → String → Option Executable → Compilation
  /-- Samples from the posterior distribution. -/
  sample : Executable → BuildData → SampleRequest → Except EngineError (Posterior Float)
  /-- Approximates the posterior distribution. -/
  approximate : Executable → BuildData → VariationalRequest → Except EngineError (Posterior Float)

/-- A request that an engine received. -/
inductive EngineCall where
  /-- A request to make an executable, and whether there was one to be reused. -/
  | compile (request : CompileRequest) (reused : Bool)
  | sample (request : SampleRequest)
  | approximate (request : VariationalRequest)
  deriving Repr

/-- The names of the settings that a run itself makes. -/
def reservedSettings : List String :=
  ["self", "handle", "data", "chains", "chain_ids", "parallel_chains", "seed", "inits",
    "iter_warmup", "iter_sampling", "thin", "control", "silent"]

/-- The names of the settings that a variational run itself makes. -/
def reservedApproximation : List String :=
  ["self", "handle", "data", "algorithm", "iter", "output_samples", "seed", "inits", "silent"]

/-- The first of some settings that has a reserved name. -/
def repeatedSetting? (reserved : List String) (settings : Settings) : Option String :=
  (settings.map Prod.fst).find? reserved.contains

end Multilevel
