import Multilevel.Data.Lags
import Multilevel.Family.Basic
import Multilevel.Terms.Design

/-!
# Terms of a model

A formula together with the data it is fitted to: the names of all coefficients, and for each
group-level term the coefficients that vary and the levels they vary with. The tree fixes which
parameters a model has.
-/
namespace Multilevel

/-- A group-level term with what the data say about it. -/
structure Group where
  /-- The number of the term, counted from one. -/
  id : Nat
  /-- The term. -/
  term : GroupTerm
  /-- The varying coefficients. -/
  coefficients : List String
  /-- The levels of the grouping factor. -/
  levels : List String
  /-- Whether the covariance of the levels is known. -/
  hasCovariance : Bool
  deriving Repr, DecidableEq

namespace Group

/-- The grouping factor. -/
def factor (group : Group) : String := group.term.group

/-- Whether the coefficients are declared as correlated. -/
def correlated (group : Group) : Bool := group.term.correlated

/-- The number of varying coefficients. -/
def size (group : Group) : Nat := group.coefficients.length

/-- Whether correlations are estimated: they need at least two coefficients. -/
def hasCorrelations (group : Group) : Bool := group.correlated && 1 < group.size

end Group

/-- The terms of a model. -/
structure TermTree where
  /-- The formula. -/
  formula : Formula
  /-- The family of the response. -/
  family : Family
  /-- The autoregressive structure of the residuals, if any. -/
  autocorrelation : Option Autocorrelation
  /-- The names of the coefficients shared by all observations, without the intercept. -/
  population : List String
  /-- The group-level terms. -/
  groups : List Group

namespace TermTree

/-- Whether an intercept is estimated. -/
def intercept (tree : TermTree) : Bool := tree.formula.intercept

/-- The names of the parameters that belong to the response distribution and to the residuals. -/
def auxiliaries (tree : TermTree) : List String :=
  tree.family.distribution.auxiliaries.map Auxiliary.name ++
    (if tree.autocorrelation.isSome then ["ar"] else [])

/-- The grouping factors, each once, in order of appearance. -/
def factors (tree : TermTree) : List String := (tree.groups.map Group.factor).eraseDups

/-- The group-level terms of a grouping factor. -/
def groupsOf (tree : TermTree) (factor : String) : List Group :=
  tree.groups.filter fun group => group.factor = factor

/-- Whether two optional structures are the same. -/
def sameAutocorrelation : Option Autocorrelation → Option Autocorrelation → Bool
  | some a, some b => a.same b
  | none, none => true
  | _, _ => false

/-- Whether two trees describe the same terms. -/
def same (a b : TermTree) : Bool :=
  a.formula == b.formula && a.family == b.family &&
    sameAutocorrelation a.autocorrelation b.autocorrelation &&
    a.population == b.population && a.groups == b.groups

/-- Adds group-level terms to those built so far; a coefficient may vary only once with a factor. -/
def addGroups (frame : Frame) (covariances : List String) :
    List GroupTerm → List Group → Except Failure (List Group)
  | [], built => .ok built
  | term :: rest, built => do
    let columns ← Design.groupMatrix frame.predictors term
    let coefficients := columns.map DesignColumn.label
    let earlier := built.flatMap fun group =>
      if group.factor = term.group then group.coefficients else []
    if let some twice := firstTwice earlier coefficients then
      refuse (FormulaError.duplicatedCoefficient twice term.group)
    let some levels := (← frame.column term.group).levels?
      | refuse Fault.unknownAttribute
    let group := ⟨built.length + 1, term, coefficients, levels, covariances.contains term.group⟩
    addGroups frame covariances rest (built ++ [group])
where
  /-- The first name that has been seen before. -/
  firstTwice (seen : List String) : List String → Option String
    | [] => none
    | name :: rest => if seen.contains name then some name else firstTwice (name :: seen) rest

/-- The terms of a model with cleaned data. -/
def build (formula : Formula) (family : Family) (autocorrelation : Option Autocorrelation)
    (frame : Frame) (covariances : List String) : Except Failure TermTree := do
  let columns ← Design.matrix frame.predictors formula.intercept formula.terms
  let groups ← addGroups frame covariances formula.groupTerms []
  return ⟨formula, family, autocorrelation, columns.map DesignColumn.label, groups⟩

end TermTree

end Multilevel
