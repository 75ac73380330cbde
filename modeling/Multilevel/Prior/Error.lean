/-!
# Faults of priors

Why a prior is malformed or cannot belong to a model.
-/
namespace Multilevel

/-- A fault of a prior or of a collection of priors. -/
inductive PriorError where
  /-- No parameters form the given class. -/
  | unknownClass (name : String)
  /-- The text is not the call of a distribution. -/
  | malformed (text : String)
  /-- The distribution of correlation matrices stands elsewhere, or another one stands for it. -/
  | correlation (text className : String)
  /-- A collection holds something that is no prior. -/
  | notPrior (kind : String)
  /-- A slot is given twice. -/
  | duplicated (className coefficient group : String)
  /-- The model has no such slot. -/
  | noSlot (text className coefficient group : String)
  /-- Parameters that would have to be drawn from their priors have none. -/
  | improper (names : List String)
  deriving Repr, DecidableEq

/-- The classes of parameters that priors can be set for. -/
def parameterClasses : List String :=
  ["b", "Intercept", "sd", "cor", "sigma", "nu", "shape", "ar"]

/-- The text that reports a fault. -/
def PriorError.message : PriorError → String
  | .unknownClass name =>
    s!"Unknown parameter class '{name}'. Valid classes are: " ++ ", ".intercalate parameterClasses
  | .malformed text => s!"Malformed prior '{text}'; expected 'name(args)'"
  | .correlation text className =>
    s!"Correlation matrices require an 'lkj' prior, and 'lkj' is only valid for class 'cor'; got " ++
      s!"'{text}' for class '{className}'"
  | .notPrior kind => s!"Expected Prior objects, got {kind}"
  | .duplicated className coefficient group =>
    s!"Duplicated prior specification for class '{className}', coef '{coefficient}', group " ++
      s!"'{group}'"
  | .noSlot text className coefficient group =>
    s!"Prior '{text}' is assigned to class '{className}', coef '{coefficient}', group '{group}', " ++
      "which does not exist in the model. See get_prior for the valid slots."
  | .improper names =>
    "Sampling from priors is not possible as some parameters have no proper priors: " ++
      ", ".intercalate names

end Multilevel
