import Multilevel.Draws.Rename
import Multilevel.Draws.Summary
import Multilevel.Engine.Compiled

/-!
# Fits

A fit joins what a run of the pipeline yields: the specification of the model, what was generated
from it, the compiled model and the draws. A fit is never changed; keeping books (where it is
stored, which criteria were computed) gives a new one.
-/
namespace Multilevel

/-- What is generated from a specification. -/
structure Artifacts where
  /-- The text of the program. -/
  code : String
  data : BuildData
  /-- The names of the program's variables that are dropped from the output. -/
  exclude : List String
  /-- The group-level terms. -/
  groups : List Group
  /-- The names of the coefficients shared by all observations. -/
  population : List String
  /-- Whether an intercept is estimated. -/
  intercept : Bool

namespace Artifacts

/-- What is generated from a specification with a program text. -/
def make (s : Specification) (code : String) (data : BuildData) : Artifacts :=
  ⟨code, data, s.exclude, s.terms.groups, s.terms.population, s.terms.intercept⟩

/-- What the names of the draws refer to. -/
def termNames (a : Artifacts) : TermNames := ⟨a.population, a.groups⟩

/-- Whether two artifacts hold the same program, data and names. -/
def same (a b : Artifacts) : Except Fault Bool := do
  if a.code != b.code then return false
  if !(← a.data.same b.data) then return false
  return a.exclude == b.exclude && a.groups == b.groups && a.population == b.population &&
    a.intercept == b.intercept

end Artifacts

/-- A fitted model. -/
structure Fit where
  specification : Specification
  artifacts : Artifacts
  compiled : CompiledModel
  draws : Posterior Float
  /-- The algorithm that gave the draws. -/
  algorithm : String
  /-- Where the fit is stored, if it is. -/
  file : Option String := none
  /-- Criteria for comparing models, computed after fitting. -/
  criteria : Settings := []

namespace Fit

/-- The fit with further criteria. -/
def withCriteria (f : Fit) (more : Settings) : Fit :=
  { f with criteria := Entries.putAll f.criteria more }

/-- The fit without criteria. -/
def resetCriteria (f : Fit) : Fit := { f with criteria := [] }

/-- The fit as it is stored in a file. -/
def stored (f : Fit) (file : String) : Fit :=
  { f with file := some file, compiled := f.compiled.stored }

/-- Whether two lists hold the same names, in whatever order. -/
def sameNames (a b : List String) : Bool := a.all b.contains && b.all a.contains

/-- Whether two fits are the same, wherever they are stored. -/
def same (a b : Fit) : Except Fault Bool := do
  if !(← a.specification.same b.specification) then return false
  if !(← a.artifacts.same b.artifacts) then return false
  return a.compiled.same b.compiled && a.draws.same b.draws && a.algorithm == b.algorithm &&
    sameNames (a.criteria.map Prod.fst) (b.criteria.map Prod.fst)

/-- The summary of the draws. -/
def summary (f : Fit) (quantiles : List Float) : Except Fault SummaryTable :=
  SummaryTable.ofDataset f.draws.draws quantiles

/-- The displayed form of a fit. -/
def text (f : Fit) : Except Fault String := do
  let draws ← f.draws.drawCount
  let file := match f.file with
    | some file => Text.quoted file
    | none => Value.null.display
  return s!"FitResult(formula='{f.specification.formula.text}', " ++
    s!"family={f.specification.family.distribution.name}, algorithm={f.algorithm}, " ++
    s!"chains={f.draws.chains.length}, draws={draws}, file={file})"

end Fit

end Multilevel
