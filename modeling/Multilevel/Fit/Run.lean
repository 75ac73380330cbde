import Multilevel.Engine.Build
import Multilevel.Model.Reuse
import Multilevel.Run.Dispatch
import Multilevel.Store.Workspace

/-!
# Fitting models

Fitting is the whole way from the description of a model to its draws. A fit that is stored under
the file asked for is returned at once. Otherwise the settings of the run are checked first; then
the model of a fit that is reused is loaded again, or a new model is specified, generated and
built, its data before its executable; then the chains run, and the draws get user-facing names.
Only a fit that came out well is stored.
-/
namespace Multilevel

/-- The arguments of a fit. -/
structure FitArguments where
  /-- The description of the model, which a reused fit may do without. -/
  model : ReuseArguments := {}
  /-- The fit that is reused. -/
  reused : Option Fit := none
  /-- Whether the effects of groups are kept in the output. -/
  keepEffects : Bool := true
  /-- Whether internal parameters are kept in the output. -/
  keepInternal : Bool := false
  run : RunArguments := {}
  /-- Where the program is written to. -/
  programFile : Option String := none
  /-- The options that the program is built with. -/
  buildOptions : Settings := []
  /-- Whether the executable is kept. -/
  keepExecutable : Bool := true
  /-- Where the fit is stored. -/
  file : Option String := none
  /-- The folder that the program is built in. -/
  folder : Option String := none
  /-- Whether the draws get user-facing names. -/
  rename : Bool := true

namespace ReuseArguments

/-- The description of a new model, which needs a formula and data. -/
def complete (a : ReuseArguments) (keepEffects keepInternal : Bool) :
    Except SpecificationError ModelArguments :=
  match a.formula, a.data with
  | some formula, some data => .ok {
      formula, data
      family := a.family.getD .standard
      prior := a.prior.getD .none
      autocorrelation := a.autocorrelation
      covariances := a.covariances.getD []
      samplePrior := a.samplePrior.getD (.named "no")
      sparse := a.sparse.getD false
      knots := a.knots.getD []
      fragments := a.fragments
      functions := a.functions
      keepEffects, keepInternal }
  | _, _ => .error .incomplete

end ReuseArguments

/-- A model that is ready to run. -/
structure ReadyModel where
  specification : Specification
  artifacts : Artifacts
  compiled : CompiledModel
  executable : Executable

namespace FitArguments

/-- Writes the text of the program where it is asked for. -/
def writeProgram (a : FitArguments) (code : String) : Work Unit :=
  match a.programFile with
  | some path => Work.write path (.text code)
  | none => return ()

/-- The model of a fit that is reused. -/
def reuseModel (a : FitArguments) (engine : Engine) (f : Fit) : Work ReadyModel := do
  Work.report (f.specification.checkReuse a.model)
  a.writeProgram f.artifacts.code
  let (compiled, executable) ← engine.reload f.compiled
  return ⟨f.specification, f.artifacts, compiled, executable⟩

/-- A new model. -/
def newModel (a : FitArguments) (engine : Engine) : Work ReadyModel := do
  let model ← Work.check (a.model.complete a.keepEffects a.keepInternal)
  let specification ← Work.report (Specification.normalize model)
  let code := specification.code
  a.writeProgram code
  let data ← Work.check (BuildData.ofSpecification specification)
  let compiled ← engine.build ⟨code, a.buildOptions, a.folder, a.keepExecutable⟩
  let (compiled, executable) ← engine.reload compiled
  return ⟨specification, .make specification code data, compiled, executable⟩

/-- Runs a model and names its draws. -/
def runModel (a : FitArguments) (engine : Engine) (model : ReadyModel) (config : RunConfig) :
    Work Fit := do
  let draws ← engine.dispatch model.executable model.artifacts.data config
  let draws := draws.without model.artifacts.exclude
  let draws ← if a.rename then Work.check (draws.rename model.artifacts.termNames) else pure draws
  return {
    specification := model.specification
    artifacts := model.artifacts
    compiled := model.compiled
    draws
    algorithm := a.run.algorithm }

/-- Fits a model anew. -/
def fitAnew (a : FitArguments) (engine : Engine) (session : SessionSettings) : Work Fit := do
  let config ← Work.report (a.run.configure session)
  let model ← match a.reused with
    | some f => a.reuseModel engine f
    | none => a.newModel engine
  let f ← a.runModel engine model config
  match a.file with
  | some file => f.save file
  | none => return f

/-- The stored fit, or a new one. -/
def fit (a : FitArguments) (engine : Engine) (session : SessionSettings) : Work Fit := do
  let stored ← match a.file with
    | some file => Fit.load? file
    | none => pure none
  match stored with
  | some f => return f
  | none => a.fitAnew engine session

end FitArguments

end Multilevel
