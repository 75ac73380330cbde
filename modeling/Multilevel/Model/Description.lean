import Multilevel.Model.Reuse
import Multilevel.Value.Expect

/-!
# Models described by loose values

The parts of a model are built first; whether everything is of the kind that is asked for is
decided when the model is used. An argument that is not there has its standard value; beside a fit
that is reused, nothing counts as not there.
-/
namespace Multilevel

/-- The autoregressive structure that loose values describe. -/
def Autocorrelation.ofGiven (given : List (String × Value)) : Except Failure Autocorrelation := do
  (Expect.knownNames ["p", "time", "group"] given : Except Fault Unit)
  let order ← (Expect.field given "p" 1 Expect.whole : Except Fault _)
  let time ← (Expect.field given "time" none (Expect.optional Expect.text) : Except Fault _)
  let group ← (Expect.field given "group" none (Expect.optional Expect.text) : Except Fault _)
  (Autocorrelation.make order time group : Except SpecificationError _)

/-- The code fragment that loose values describe. -/
def Fragment.ofGiven (given : List (String × Value)) : Except Failure Fragment := do
  let text (name : String) : Except Fault (Option String) :=
    Expect.field given name none (Expect.optional Expect.text)
  let name ← (text "name" : Except Fault _)
  let code ← (text "scode" : Except Fault _)
  let block ← (Expect.field given "block" "data" Expect.text : Except Fault _)
  Fragment.describe ((given.lookup "value").getD .null) name code block

/-- A family, built already or not. -/
inductive FamilyPart where
  | loose (value : Value)
  | given (family : Family)

/-- The choice of a family. -/
def FamilyPart.choice : FamilyPart → Except Fault FamilyChoice
  | .given family => .ok (.given family)
  | .loose .null => .ok .standard
  | .loose (.text s) => .ok (.named s)
  | .loose _ => .error .mistyped

/-- The choice about draws from the priors. -/
def SamplePriorChoice.expect : Value → Except Fault SamplePriorChoice
  | .bool b => .ok (.truth b)
  | .text s => .ok (.named s)
  | _ => .error .mistyped

/-- A model whose simple arguments are still loose. -/
structure ModelDescription where
  data : Option DataSource := none
  family : Option FamilyPart := none
  prior : Option PriorArgument := none
  autocorrelation : Option Autocorrelation := none
  covariances : Option (List (String × CovarianceSource)) := none
  knots : Option (List (String × List Float)) := none
  fragments : Option Fragments := none
  /-- All other arguments under their names. -/
  loose : List (String × Value) := []

namespace ModelDescription

/-- The names of the simple arguments. -/
def looseNames : List String :=
  ["formula", "sample_prior", "sparse", "stan_funs", "save_ranef", "save_all_pars"]

/-- The formula's text. -/
def formula (d : ModelDescription) : Except Fault String :=
  match d.loose.lookup "formula" with
  | some value => Expect.text value
  | none => .error .mistyped

/-- The choice of a family. -/
def familyChoice (d : ModelDescription) : Except Fault FamilyChoice :=
  match d.family with
  | some part => part.choice
  | none => .ok .standard

/-- The source of the data; nothing is no table. -/
def source (d : ModelDescription) : DataSource := d.data.getD (.other Value.null.kindName)

/-- The arguments of a new model. -/
def model (d : ModelDescription) : Except Fault ModelArguments := do
  return {
    formula := ← d.formula
    data := d.source
    family := ← d.familyChoice
    prior := d.prior.getD .none
    autocorrelation := d.autocorrelation
    covariances := d.covariances.getD []
    samplePrior := ← Expect.field d.loose "sample_prior" (.named "no") SamplePriorChoice.expect
    sparse := ← Expect.field d.loose "sparse" false Expect.truth
    knots := d.knots.getD []
    fragments := d.fragments
    functions := ← Expect.field d.loose "stan_funs" none (Expect.optional Expect.text)
    keepEffects := ← Expect.field d.loose "save_ranef" true Expect.truth
    keepInternal := ← Expect.field d.loose "save_all_pars" false Expect.truth }

/-- Whether data are given. -/
def hasData : DataSource → Bool
  | .other kind => kind != Value.null.kindName
  | _ => true

/-- Whether priors are given. -/
def hasPrior : PriorArgument → Bool
  | .none => false
  | _ => true

/-- The arguments beside a fit. -/
def reuse (d : ModelDescription) : Except Fault ReuseArguments := do
  let family ← match d.family with
    | some (.loose .null) | none => pure none
    | some part => some <$> part.choice
  return {
    formula := ← Expect.field d.loose "formula" none (Expect.optional Expect.text)
    data := d.data.filter hasData
    family
    prior := d.prior.filter hasPrior
    autocorrelation := d.autocorrelation
    covariances := d.covariances
    samplePrior := ← Expect.field d.loose "sample_prior" none
      (Expect.optional SamplePriorChoice.expect)
    sparse := ← Expect.field d.loose "sparse" none (Expect.optional Expect.truth)
    knots := d.knots
    fragments := d.fragments
    functions := ← Expect.field d.loose "stan_funs" none (Expect.optional Expect.text) }

end ModelDescription

end Multilevel
