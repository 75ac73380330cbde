/-!
# Faults of a specification

Faults of a model specification that concern neither its formula nor its family, priors or data
alone.
-/
namespace Multilevel

/-- The names of the program blocks that code fragments can go to. -/
def fragmentBlocks : List String :=
  ["functions", "data", "tdata", "parameters", "tparameters", "model", "genquant"]

/-- A fault of a model specification. -/
inductive SpecificationError where
  /-- The order of an autoregressive process is below one. -/
  | order (given : String)
  /-- The family does not allow for autoregressive residuals. -/
  | autocorrelation
  /-- A covariance matrix is given for effects that are correlated. -/
  | correlatedCovariance (name : String)
  /-- The choice about draws from the priors is unknown. -/
  | samplePrior (given : String)
  /-- An argument does not describe the model of the fit that is to be reused. -/
  | differs (argument : String)
  /-- A code fragment goes to a block that does not exist. -/
  | unknownBlock (name : String)
  /-- A value is attached to code outside of the data block. -/
  | valueBlock
  /-- A value has no name. -/
  | valueName
  /-- Two code fragments have one name. -/
  | duplicatedNames
  /-- A code fragment has no code, and none can be derived. -/
  | noCode
  /-- A code fragment's value has the name of a generated variable. -/
  | clash (name : String)
  /-- A fit is asked for without a formula or without data. -/
  | incomplete
  deriving Repr, DecidableEq

/-- The text that reports a fault. -/
def SpecificationError.message : SpecificationError → String
  | .order given => s!"The AR order must be at least 1, got {given}"
  | .autocorrelation =>
    "Autocorrelation structures are only implemented for the gaussian and student families with " ++
      "identity link"
  | .correlatedCovariance name =>
    s!"'cov_ranef' cannot be combined with correlated group-level effects of '{name}'. Use '||' " ++
      "to model them as uncorrelated."
  | .samplePrior given => s!"'sample_prior' must be one of no, yes, only, got {given}"
  | .differs argument =>
    s!"Argument '{argument}' differs from the model of the fit being reused. Fit the model anew " ++
      "to change it."
  | .unknownBlock name =>
    s!"Unknown block '{name}' for stanvar. Valid blocks are: " ++ ", ".intercalate fragmentBlocks
  | .valueBlock => "Values can only be attached to stanvars in the 'data' block"
  | .valueName => "Stanvars carrying a value need a name"
  | .duplicatedNames => "Duplicated stanvar names"
  | .noCode => "Either 'scode' or both 'value' and 'name' are needed"
  | .clash name => s!"Stanvar '{name}' clashes with a variable generated by hierstan"
  | .incomplete => "'formula' and 'data' are required unless 'fit' is given"

end Multilevel
