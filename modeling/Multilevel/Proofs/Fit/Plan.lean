import Multilevel.Proofs.Fit.Steps
import Multilevel.Proofs.Store.Unheard

/-!
# What a fit decides without the engine

Before the engine is asked for anything, a fit has checked its run and its model and has written its
program. What is left is planned: the model is ready, or its executable is to be made. Making ready
is carrying out the plan (`FitArguments.ready_eq`), and whatever an engine fails with then or later
is no refusal.
-/
namespace Multilevel

/-- An executable that a fit lacks, and the model that it completes. -/
structure BuildOrder where
  request : CompileRequest
  /-- Whether what the engine says stays off the console. -/
  silent : Bool
  /-- Whether the program was built before. -/
  reloading : Bool
  /-- The model, from the executable and what the engine said. -/
  complete : Executable → List String → ReadyModel

/-- The configuration of a run was checked. -/
theorem RunArguments.validate_of_configure {a : RunArguments} {session : SessionSettings}
    {config : RunConfig} (configured : (a.configure session).outcome = .ok config) :
    config.validate = .ok () := by
  have checked (x : Reported RunConfig) (done : (x >>= fun config =>
      (liftM config.validate : Reported Unit) >>= fun _ => pure config).outcome = .ok config) :
      config.validate = .ok () := by
    simp only [Reported.outcome_bind, bind_eq_ok, Reported.outcome_liftM, mapError_eq_ok,
      Reported.outcome_pure] at done
    obtain ⟨given, _, _, valid, same⟩ := done
    obtain rfl := Except.ok.inj same
    exact valid
  unfold configure at configured
  dsimp only at configured
  rw [Reported.outcome_ite] at configured
  split at configured
  · cases configured
  · split at configured
    · exact checked _ configured
    · exact checked _ configured

namespace Engine

variable {engine : Engine}

/-- Writes a program to where it is built, and gives the options and the request to build it. -/
def arrange (a : BuildArguments) : Work (BuildOptions × CompileRequest) := do
  let options ← BuildOptions.ofSettings a.settings
  let stem := options.stem (options.identity a.source)
  let folder ← buildFolder a.folder a.keep
  Work.makeFolders folder
  let programFile := Path.join folder (stem ++ ".stan")
  writeProgram programFile a.source
  return (options, ⟨programFile, Path.join folder stem, options.force, options.translator,
    options.compiler, options.header⟩)

/-- The model that a request gives. -/
def builtFrom (a : BuildArguments) (options : BuildOptions) (request : CompileRequest)
    (executable : Executable) (lines : List String) : CompiledModel :=
  ⟨options.identity a.source, a.source, request.programFile, request.executableFile, lines, options,
    some executable⟩

/-- Writing a program makes no request. -/
theorem isUnheard_writeProgram (path source : String) : (writeProgram path source).IsUnheard := by
  refine (Work.isUnheard_file? path).bind fun found => ?_
  split
  · split
    · exact Work.isUnheard_changeDisk _
    · exact Work.isUnheard_pure _
  · exact Work.isUnheard_changeDisk _

/-- Arranging a build makes no request. -/
theorem isUnheard_arrange (a : BuildArguments) : (arrange a).IsUnheard := by
  refine (Work.isUnheard_check _).bind fun options => Work.IsUnheard.bind ?_ fun folder =>
    (Work.isUnheard_changeDisk _).bind fun _ => (isUnheard_writeProgram _ _).bind fun _ =>
      Work.isUnheard_pure _
  unfold buildFolder
  split
  · exact (Work.isUnheard_warn _).bind fun _ => Work.isUnheard_makeTemporary
  · split
    · exact Work.isUnheard_pure _
    · exact Work.isUnheard_get.bind fun _ => Work.isUnheard_pure _

/-- A build is arranged before the engine is asked for it. -/
theorem build_eq (engine : Engine) (a : BuildArguments) :
    engine.build a = arrange a >>= fun (options, request) =>
      engine.captureExecutable request a.settings.isEmpty false >>= fun (executable, lines) =>
        pure (builtFrom a options request executable lines) := by
  unfold build arrange builtFrom
  simp only [bind_assoc, pure_bind]

/-- A model that has its executable is ready; another one is to be made again from its files. -/
def planReload (c : CompiledModel) (ready : CompiledModel → Executable → ReadyModel) :
    Work (ReadyModel ⊕ BuildOrder) :=
  match c.handle with
  | some executable => return .inl (ready c executable)
  | none => do
    Work.makeFolders (Path.parent c.programFile)
    writeProgram c.programFile c.source
    let request := ⟨c.programFile, c.executableFile, false, c.options.translator,
      c.options.compiler, c.options.header⟩
    return .inr ⟨request, true, true, fun executable _ =>
      ready { c with handle := some executable } executable⟩

end Engine

namespace FitArguments

/-- What a fit that reuses another decides without the engine. -/
def planReused (a : FitArguments) (f : Fit) : Work (ReadyModel ⊕ BuildOrder) := do
  Work.report (f.specification.checkReuse a.model)
  a.writeProgram f.artifacts.code
  Engine.planReload f.compiled (ReadyModel.mk f.specification f.artifacts)

/-- What a fit of a new model decides without the engine. -/
def planNew (a : FitArguments) : Work (ReadyModel ⊕ BuildOrder) := do
  let model ← Work.check (a.model.complete a.keepEffects a.keepInternal)
  let specification ← Work.report (Specification.normalize model)
  let code := specification.code
  a.writeProgram code
  let data ← Work.check (BuildData.ofSpecification specification)
  let build : BuildArguments := ⟨code, a.buildOptions, a.folder, a.keepExecutable⟩
  let (options, request) ← Engine.arrange build
  return .inr ⟨request, a.buildOptions.isEmpty, false, fun executable lines =>
    ⟨specification, .make specification code data,
      Engine.builtFrom build options request executable lines, executable⟩⟩

/-- What is left to do for the model of a fit. -/
def planModel (a : FitArguments) : Work (ReadyModel ⊕ BuildOrder) :=
  match a.reused with
  | some f => a.planReused f
  | none => a.planNew

/-- What a fit decides without the engine: the configuration of its run, and what is left to do for
the model. -/
def plan (a : FitArguments) (session : SessionSettings) :
    Work (RunConfig × (ReadyModel ⊕ BuildOrder)) := do
  let config ← Work.report (a.run.configure session)
  let left ← a.planModel
  return (config, left)

variable {a : FitArguments} {engine : Engine} {session : SessionSettings}

/-- Writing the program where it is asked for makes no request. -/
theorem isUnheard_writeProgram (a : FitArguments) (code : String) :
    (a.writeProgram code).IsUnheard := by
  unfold writeProgram
  split
  · exact Work.isUnheard_changeDisk _
  · exact Work.isUnheard_pure _

/-- Storing a fit makes no request. -/
theorem isUnheard_store (a : FitArguments) (f : Fit) : (a.store f).IsUnheard := by
  unfold store
  split
  · exact (Work.isUnheard_changeDisk _).bind fun _ => (Work.isUnheard_changeDisk _).bind fun _ =>
      Work.isUnheard_pure _
  · exact Work.isUnheard_pure _

end FitArguments

end Multilevel
