import Multilevel.Model.Specification

/-!
# Reuse of a specification

A fit is reused without building its model anew. Whatever describes a model and is given beside
the fit has to describe the model of the fit.
-/
namespace Multilevel

/-- The arguments that may be given beside a fit that is reused. -/
structure ReuseArguments where
  formula : Option String := none
  data : Option DataSource := none
  family : Option FamilyChoice := none
  prior : Option PriorArgument := none
  autocorrelation : Option Autocorrelation := none
  covariances : Option (List (String × CovarianceSource)) := none
  samplePrior : Option SamplePriorChoice := none
  sparse : Option Bool := none
  knots : Option (List (String × List Float)) := none
  fragments : Option Fragments := none
  functions : Option String := none

namespace Specification

/-- Refuses an argument that differs from the specification. -/
def require (argument : String) (agrees : Bool) : Reported Unit :=
  if agrees then return () else refuse (SpecificationError.differs argument)

/-- Checks that the arguments beside a reused fit describe its model. -/
def checkReuse (s : Specification) (a : ReuseArguments) : Reported Unit := do
  if let some text := a.formula then
    require "formula" ((← Formula.read text) == s.formula)
  if let some choice := a.family then
    require "family" ((← choice.resolve) == s.family)
  if let some given := a.autocorrelation then
    require "autocor" (TermTree.sameAutocorrelation (some given) s.autocorrelation)
  if let some source := a.data then
    let frame ← source.frame
    let updated ← Cleaning.update frame s.formula s.family s.autocorrelation
      (s.knots.map Prod.fst)
    require "data" (updated.same s.data)
  if let some given := a.prior then
    require "prior" ((← given.priors) == s.givenPriors)
  if let some sources := a.covariances then
    require "cov_ranef"
      (sameCovariances (← CovarianceSource.checkAll sources s.terms) s.covariances)
  if let some choice := a.samplePrior then
    require "sample_prior" ((← choice.resolve) == s.samplePrior)
  if let some sparse := a.sparse then require "sparse" (sparse == s.sparse)
  if let some given := a.knots then
    require "knots" (sameKnots (← checkAllKnots s.formula given) s.knots)
  if a.fragments.isSome || a.functions.isSome then
    let fragments ← Fragments.collect a.fragments a.functions
    require "stanvars" (← fragments.same s.fragments)

end Specification

end Multilevel
