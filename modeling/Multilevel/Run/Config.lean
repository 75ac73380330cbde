import Multilevel.Inits.Resolve

/-!
# Configurations of a run

A run samples from the posterior distribution in several chains, or approximates it in a single
job. A configuration is checked before anything is compiled or run.
-/
namespace Multilevel

/-- How the chains of a sampling run are executed. -/
inductive Strategy where
  /-- One call of the engine, which runs the chains one after the other. -/
  | sequential
  /-- One call of the engine, which runs the chains in parallel. -/
  | forked
  /-- One call of the engine for each chain. -/
  | futures
  deriving Repr, DecidableEq

namespace Strategy

/-- The name of a strategy. -/
def name : Strategy → String
  | sequential => "sequential"
  | forked => "forked"
  | futures => "futures"

/-- The strategy of a name. -/
def ofName? : String → Option Strategy
  | "sequential" => some sequential
  | "forked" => some forked
  | "futures" => some futures
  | _ => none

/-- The strategy for a choice about futures and a number of cores. -/
def choose (future : Bool) (cores : Int) : Strategy :=
  if future then futures else if 1 < cores then forked else sequential

end Strategy

/-- Settings under their names. -/
abbrev Settings := List (String × Value)

/-- The configuration of a sampling run. -/
structure SamplingConfig where
  chains : Whole := 4
  /-- Iterations of a chain, warmup included. -/
  iterations : Whole := 2000
  warmup : Whole := 1000
  thinning : Whole := 1
  cores : Whole := 1
  /-- Settings of the sampler. -/
  control : Settings := []
  seed : Option Whole := none
  inits : Inits := .random
  /-- Whether progress is not shown. -/
  silent : Bool := false
  strategy : Strategy := .sequential
  /-- Further settings for the engine. -/
  settings : Settings := []
  deriving Repr

/-- The parts of a configuration under their names. -/
def SamplingConfig.fields (c : SamplingConfig) : Settings :=
  [("chains", c.chains.value), ("iter", c.iterations.value), ("warmup", c.warmup.value),
    ("thin", c.thinning.value), ("cores", c.cores.value), ("control", .record c.control),
    ("seed", Whole.optionalValue c.seed), ("inits", c.inits.value),
    ("silent", .bool c.silent), ("strategy", .text c.strategy.name),
    ("engine_kwargs", .record c.settings)]

/-- The sampler's settings that may be given. -/
def controlNames : List String :=
  ["adapt_delta", "max_treedepth", "step_size", "adapt_engaged", "metric"]

namespace SamplingConfig

/-- Iterations of a chain after its warmup. -/
def draws (c : SamplingConfig) : Int := c.iterations.toInt - c.warmup.toInt

/-- Refuses a count below one. -/
def requireOne (setting : String) (count : Quantity) : Except ConfigurationError Unit :=
  if count.isBelow 1 then .error (.atLeastOne setting count.text) else .ok ()

/-- The names that the sampler has no settings for, in order. -/
def unknownControl (names : List String) : List String :=
  (names.filter fun name => !controlNames.contains name).mergeSort

/-- Refuses names that the sampler has no settings for. -/
def requireControl (names : List String) : Except ConfigurationError Unit :=
  if (unknownControl names).isEmpty then .ok () else .error (.control (unknownControl names))

/-- Refuses a negative warmup. -/
def requireWarmup (warmup : Quantity) : Except ConfigurationError Unit :=
  if warmup.isBelow 0 then .error (.warmup warmup.text) else .ok ()

/-- Refuses iterations that do not exceed the warmup. -/
def requireDraws (iterations warmup : Quantity) : Except ConfigurationError Unit :=
  if iterations.isAtMost warmup then .error (.iterations iterations.text warmup.text) else .ok ()

/-- Checks the counts and the settings of a sampling run. -/
def checkCounts (c : SamplingConfig) : Except ConfigurationError Unit := do
  requireOne "chains" (.whole c.chains)
  requireWarmup (.whole c.warmup)
  requireDraws (.whole c.iterations) (.whole c.warmup)
  requireOne "thin" (.whole c.thinning)
  requireOne "cores" (.whole c.cores)
  requireControl (c.control.map Prod.fst)

/-- Checks that records of initial values are as many as the chains. -/
def checkInits (c : SamplingConfig) : Except InitError Unit :=
  match c.inits with
  | .perChain records =>
    if (records.length : Int) = c.chains.toInt then .ok ()
    else .error (.count records.length c.chains.text)
  | _ => .ok ()

/-- Checks a sampling run before anything is run. -/
def validate (c : SamplingConfig) : Except Failure Unit := do
  (c.checkCounts : Except ConfigurationError Unit)
  (c.checkInits : Except InitError Unit)

end SamplingConfig

/-- The configuration of a variational run. -/
structure VariationalConfig where
  algorithm : String := "meanfield"
  /-- The most iterations of the optimiser. -/
  iterations : Whole := 2000
  /-- The number of draws from the approximation. -/
  samples : Quantity := .whole 1000
  seed : Option Whole := none
  inits : Inits := .random
  /-- Whether the console is not shown. -/
  silent : Bool := false
  /-- Further settings for the engine. -/
  settings : Settings := []
  deriving Repr

/-- The parts of a configuration under their names. -/
def VariationalConfig.fields (c : VariationalConfig) : Settings :=
  [("algorithm", .text c.algorithm), ("iter", c.iterations.value),
    ("output_samples", c.samples.value), ("seed", Whole.optionalValue c.seed),
    ("inits", c.inits.value), ("silent", .bool c.silent), ("engine_kwargs", .record c.settings)]

/-- The algorithms of variational runs. -/
def variationalAlgorithms : List String := ["meanfield", "fullrank"]

/-- Checks a variational run before anything is run. -/
def VariationalConfig.validate (c : VariationalConfig) : Except ConfigurationError Unit := do
  if !variationalAlgorithms.contains c.algorithm then throw (.variational c.algorithm)
  SamplingConfig.requireOne "iter" (.whole c.iterations)
  SamplingConfig.requireOne "output_samples" c.samples

/-- The configuration of a run. -/
inductive RunConfig where
  | sampling (c : SamplingConfig)
  | variational (c : VariationalConfig)
  deriving Repr

/-- Checks a run before anything is run. -/
def RunConfig.validate : RunConfig → Except Failure Unit
  | sampling c => c.validate
  | variational c => (c.validate : Except ConfigurationError Unit)

/-- A chain of a sampling run. -/
structure ChainJob where
  /-- The number of the chain, counted from one. -/
  number : Nat
  seed : Option Whole
  inits : ChainInits
  deriving Repr

/-- The jobs of a sampling run, one for each chain. -/
def SamplingConfig.jobs (c : SamplingConfig) : Except Fault (List ChainJob) :=
  (InitChoice.chainNumbers c.chains).mapM fun number =>
    return ⟨number, c.seed, ← c.inits.ofChain (number - 1)⟩

end Multilevel
