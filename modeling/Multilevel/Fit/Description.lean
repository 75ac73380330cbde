import Multilevel.Fit.Run
import Multilevel.Model.Description
import Multilevel.Run.Reader

/-!
# Fits described by loose values

All arguments of a fit may arrive as loose values under their names. What has no meaning for the
library is handed on to the engine.
-/
namespace Multilevel.FitArguments

/-- The names of the arguments that concern neither the model nor the run. -/
def ownNames : List String :=
  ["save_model", "stan_model_args", "save_dso", "file", "output_dir", "rename", "engine",
    "executor", "fit"]

/-- The settings for the engine. -/
def engineSettings (given : Settings) : Settings :=
  Entries.without given (ModelDescription.looseNames ++ RunArguments.names ++ ownNames)

/-- The arguments that a description of a model and loose values describe. -/
def ofDescription (d : ModelDescription) (reused : Option Fit) : Except Fault FitArguments := do
  let given := d.loose
  let path (name : String) := Expect.field given name none (Expect.optional Expect.text)
  return {
    model := ← d.reuse
    reused
    keepEffects := ← Expect.field given "save_ranef" true Expect.truth
    keepInternal := ← Expect.field given "save_all_pars" false Expect.truth
    run := ← RunArguments.ofGiven given (engineSettings given)
    programFile := ← path "save_model"
    buildOptions := (← Expect.field given "stan_model_args" none
      (Expect.optional Expect.fields)).getD []
    keepExecutable := ← Expect.field given "save_dso" true Expect.truth
    file := ← path "file"
    folder := ← path "output_dir"
    rename := ← Expect.field given "rename" true Expect.truth }

end Multilevel.FitArguments
