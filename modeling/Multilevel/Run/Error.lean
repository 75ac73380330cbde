/-!
# Faults of a configuration

Illegal settings of a run, of the program builder or of the options of a session.
-/
namespace Multilevel

/-- A fault of a setting. -/
inductive ConfigurationError where
  /-- The algorithm of a run is unknown. -/
  | algorithm (name : String)
  /-- The algorithm of a variational run is unknown. -/
  | variational (name : String)
  /-- A count is below its least value. -/
  | atLeastOne (setting given : String)
  /-- The warmup is negative. -/
  | warmup (given : String)
  /-- The iterations do not exceed the warmup. -/
  | iterations (iterations warmup : String)
  /-- The sampler has no such parameters. -/
  | control (names : List String)
  /-- A variational run is asked to use futures. -/
  | futures
  /-- Settings of sampling are given to a variational run. -/
  | samplingOnly (names : List String) (algorithm : String)
  /-- The options of the program builder are no record. -/
  | builderOptions
  /-- The program builder has no such options. -/
  | unknownBuilderOptions (names : List String)
  /-- A number of cores is no integer. -/
  | cores (given : String)
  /-- A choice about futures is no truth value. -/
  | future (given : String)
  /-- An option that is to be set is unknown. -/
  | setUnknown (name : String)
  /-- An option that is asked for is unknown. -/
  | getUnknown (name : String)
  deriving Repr, DecidableEq

/-- The text that reports a fault. -/
def ConfigurationError.message : ConfigurationError → String
  | .algorithm name =>
    s!"Unknown algorithm '{name}'. Valid algorithms are: sampling, meanfield, fullrank"
  | .variational name =>
    s!"Unknown variational algorithm '{name}'. Valid algorithms are: meanfield, fullrank"
  | .atLeastOne setting given => s!"'{setting}' must be at least 1, got {given}"
  | .warmup given => s!"'warmup' must be non-negative, got {given}"
  | .iterations total skipped =>
    s!"'iter' ({total}) must be larger than 'warmup' ({skipped})"
  | .control names =>
    "Unknown control parameters: " ++ ", ".intercalate names ++
      ". Valid parameters are: adapt_delta, max_treedepth, step_size, adapt_engaged, metric"
  | .futures => "Variational inference runs as a single job and cannot use futures"
  | .samplingOnly names run =>
    "Arguments " ++ ", ".intercalate (names.map fun name => s!"'{name}'") ++
      s!" only apply to sampling and cannot be used with algorithm '{run}'"
  | .builderOptions => "'stan_model_args' must be a mapping"
  | .unknownBuilderOptions names =>
    "Unknown builder options: " ++ ", ".intercalate names ++
      ". Valid options are: stanc_options, cpp_options, user_header, force_compile, model_name"
  | .cores given => s!"'cores' must be an integer, got {given}"
  | .future given => s!"'future' must be a boolean, got {given}"
  | .setUnknown name => s!"Unknown option '{name}'. Valid options are: cores, future"
  | .getUnknown name => s!"Unknown option '{name}'"

end Multilevel
