import Multilevel.Data.Source
import Multilevel.Family.Basic
import Multilevel.Formula.Reader
import Multilevel.Model.Cleaning
import Multilevel.Model.Covariance
import Multilevel.Model.Fragment
import Multilevel.Model.Knots
import Multilevel.Prior.Slots

/-!
# Model specifications

A specification is a model description that has passed every check that needs no program: the
formula fits the data, the data suit the family, the priors have their places. It is built from
the arguments of a caller by `Specification.normalize`, which fails before any expensive work.
-/
namespace Multilevel

/-- The choice of a family. -/
inductive FamilyChoice where
  /-- The normal distribution. -/
  | standard
  /-- The family of a name. -/
  | named (text : String)
  | given (family : Family)

/-- The family of a choice. -/
def FamilyChoice.resolve : FamilyChoice → Except FamilyError Family
  | standard => .ok Family.gaussian
  | named text => Family.read text
  | given family => .ok family

/-- A choice about draws from the priors, as a caller gives it. -/
inductive SamplePriorChoice where
  | truth (b : Bool)
  | named (text : String)

/-- The choice about draws from the priors; blanks around a name and its case do not matter. -/
def SamplePriorChoice.resolve : SamplePriorChoice → Except SpecificationError SamplePrior
  | truth b => .ok (if b then .yes else .no)
  | named text =>
    match SamplePrior.ofName? (Text.lower (Text.strip text)) with
    | some choice => .ok choice
    | none => .error (.samplePrior (Text.quoted text))

/-- The arguments that describe a model. -/
structure ModelArguments where
  formula : String
  data : DataSource
  family : FamilyChoice := .standard
  prior : PriorArgument := .none
  autocorrelation : Option Autocorrelation := none
  covariances : List (String × CovarianceSource) := []
  samplePrior : SamplePriorChoice := .named "no"
  sparse : Bool := false
  knots : List (String × List Float) := []
  fragments : Option Fragments := none
  /-- Functions given by the old argument. -/
  functions : Option String := none
  /-- Whether the effects of groups are kept in the output. -/
  keepEffects : Bool := true
  /-- Whether internal parameters are kept in the output. -/
  keepInternal : Bool := false

/-- A checked model specification. -/
structure Specification where
  formula : Formula
  family : Family
  /-- The cleaned data. -/
  data : Frame
  terms : TermTree
  /-- The priors of all slots. -/
  priors : List Prior
  /-- The priors as the caller gave them. -/
  givenPriors : List Prior
  autocorrelation : Option Autocorrelation
  /-- The known covariance matrices, in the order of their factors' names. -/
  covariances : List (String × Covariance)
  sparse : Bool
  knots : List (String × List Float)
  fragments : Fragments
  samplePrior : SamplePrior
  /-- The names of the program's variables that are dropped from the output. -/
  exclude : List String

namespace TermTree

/-- The names of a group's variables that are dropped from the output. -/
def excludedOfGroup (keepEffects keepInternal : Bool) (group : Group) : List String :=
  s!"r_{group.id}" ::
    (if keepInternal then []
      else s!"z_{group.id}" :: (if group.hasCorrelations then [s!"L_{group.id}"] else [])) ++
    (if keepEffects then []
      else (List.range group.size).map fun k => s!"r_{group.id}_{k + 1}")

/-- The names of the program's variables that are dropped from the output, in program order. -/
def excluded (tree : TermTree) (keepEffects keepInternal : Bool) : List String :=
  (if tree.intercept then ["temp_Intercept"] else []) ++
    tree.groups.flatMap (excludedOfGroup keepEffects keepInternal)

/-- The terms of a model with raw data. -/
def ofData (formula : String) (data : DataSource) (family : FamilyChoice)
    (autocorrelation : Option Autocorrelation) : Reported TermTree := do
  let formula ← Formula.read formula
  let family ← family.resolve
  let frame ← data.frame
  validateFormula formula frame family autocorrelation
  let cleaned ← Cleaning.update frame formula family autocorrelation []
  TermTree.build formula family autocorrelation cleaned []

end TermTree

namespace Specification

/-- The specification that the arguments of a caller describe. -/
def normalize (a : ModelArguments) : Reported Specification := do
  let formula ← Formula.read a.formula
  let family ← a.family.resolve
  let frame ← a.data.frame
  let samplePrior ← a.samplePrior.resolve
  validateFormula formula frame family a.autocorrelation
  let data ← Cleaning.update frame formula family a.autocorrelation (a.knots.map Prod.fst)
  let knots ← checkAllKnots formula a.knots
  let terms ← TermTree.build formula family a.autocorrelation data (a.covariances.map Prod.fst)
  let covariances ← CovarianceSource.checkAll a.covariances terms
  let givenPriors ← a.prior.priors
  let priors ← Priors.merge terms givenPriors samplePrior
  let fragments ← Fragments.collect a.fragments a.functions
  return {
    formula, family, data, terms, priors, givenPriors
    autocorrelation := a.autocorrelation
    covariances
    sparse := a.sparse
    knots, fragments, samplePrior
    exclude := terms.excluded a.keepEffects a.keepInternal }

/-- Whether two lists of covariance matrices agree. -/
def sameCovariances (a b : List (String × Covariance)) : Bool :=
  a.map Prod.fst == b.map Prod.fst && (a.zip b).all fun (x, y) => x.2.same y.2

/-- Whether two lists of knots agree. -/
def sameKnots (a b : List (String × List Float)) : Bool :=
  a.map Prod.fst == b.map Prod.fst &&
    (a.zip b).all fun (x, y) => x.2.length == y.2.length &&
      (x.2.zip y.2).all fun (u, v) => u == v

/-- Whether two specifications describe the same model and data. -/
def same (a b : Specification) : Except Fault Bool := do
  if a.covariances.map Prod.fst == b.covariances.map Prod.fst && a.formula == b.formula &&
      a.family == b.family && a.data.same b.data && a.terms.same b.terms &&
      a.priors == b.priors &&
      TermTree.sameAutocorrelation a.autocorrelation b.autocorrelation &&
      sameCovariances a.covariances b.covariances && a.sparse == b.sparse &&
      sameKnots a.knots b.knots then
    if ← a.fragments.same b.fragments then
      return a.samplePrior == b.samplePrior && a.exclude == b.exclude
    else return false
  else return false

end Specification

end Multilevel
