import Multilevel.Entries
import Multilevel.Run.Config
import Multilevel.Run.Options

/-!
# Arguments of a run

The arguments of a caller are completed by the options of the session and turned into a checked
configuration. Settings that only sampling knows are refused for a variational run.
-/
namespace Multilevel

/-- The arguments of a run. -/
structure RunArguments where
  algorithm : String := "sampling"
  inits : InitChoice := .named "random"
  chains : Option Whole := none
  iterations : Whole := 2000
  warmup : Option Whole := none
  thinning : Option Whole := none
  cores : Option Whole := none
  control : Option Settings := none
  future : Option Bool := none
  silent : Bool := true
  seed : Option Whole := none
  /-- Further settings for the engine. -/
  settings : Settings := []
  deriving Repr

/-- What a session holds for its runs. -/
structure SessionSettings where
  options : RunOptions := {}
  /-- The registered functions of initial values. -/
  registry : InitRegistry := []
  deriving Repr

namespace RunArguments

/-- The name of the setting that tells the number of draws of a variational run. -/
def samplesSetting : String := "output_samples"

/-- The configuration of a sampling run. -/
def sampling (a : RunArguments) (session : SessionSettings) : Except Failure SamplingConfig := do
  let chains := a.chains.getD 4
  let cores := a.cores.getD (.int session.options.cores)
  let future := a.future.getD session.options.future
  return {
    chains
    iterations := a.iterations
    warmup := a.warmup.getD (.int (a.iterations.toInt.fdiv 2))
    thinning := a.thinning.getD 1
    cores
    control := a.control.getD []
    seed := a.seed
    inits := ← a.inits.resolve session.registry chains
    silent := a.silent
    strategy := .choose future cores.toInt
    settings := a.settings }

/-- The given settings that only sampling knows. -/
def samplingOnly (a : RunArguments) : List String :=
  (if a.warmup.isSome then ["warmup"] else []) ++ (if a.thinning.isSome then ["thin"] else []) ++
    (if a.control.isSome then ["control"] else [])

/-- How many records of initial values a variational run takes: one, or as many as the chains
asked for. Only the first one is used. -/
def variationalInitCount (a : RunArguments) : Whole :=
  match a.chains, a.inits with
  | some chains, .listed items => if (items.length : Int) = chains.toInt then chains else 1
  | _, _ => 1

/-- The number of draws that settings ask for. -/
def samplesOf (settings : Settings) : Except Fault Quantity :=
  match settings.lookup samplesSetting with
  | none => .ok (.whole 1000)
  | some value =>
    match Quantity.ofValue? value with
    | some q => .ok q
    | none => .error .unsupported

/-- The configuration of a variational run. -/
def variational (a : RunArguments) (session : SessionSettings) : Reported VariationalConfig := do
  if a.future = some true then refuse ConfigurationError.futures
  if !a.samplingOnly.isEmpty then
    refuse (ConfigurationError.samplingOnly a.samplingOnly a.algorithm)
  if let some chains := a.chains then
    if 1 < chains.toInt then Reported.warn .chainsIgnored
  let inits ← a.inits.resolve session.registry a.variationalInitCount
  let config : VariationalConfig := {
    algorithm := a.algorithm
    iterations := a.iterations
    seed := a.seed
    inits
    silent := a.silent
    settings := Entries.without a.settings [samplesSetting] }
  config.validate
  return { config with samples := ← samplesOf a.settings }

/-- The configuration that the arguments of a caller describe. -/
def configure (a : RunArguments) (session : SessionSettings) : Reported RunConfig := do
  if a.algorithm ≠ "sampling" && !variationalAlgorithms.contains a.algorithm then
    refuse (ConfigurationError.algorithm a.algorithm)
  let config ← if a.algorithm = "sampling" then RunConfig.sampling <$> (a.sampling session : Except Failure _)
    else RunConfig.variational <$> a.variational session
  config.validate
  return config

end RunArguments

end Multilevel
