import Multilevel.Proofs.EndAlike
import Multilevel.Proofs.Engine.Builds
import Multilevel.Proofs.Engine.Rehearsal
import Multilevel.Proofs.Engine.Writable
import Multilevel.Proofs.Fit.Store
import Multilevel.Proofs.Run.Steady

/-!
# Reusing a fit is fitting its model again

A fit of a model takes the place of the description of the model: running it again, kept or loaded
from where it was stored, ends as fitting the described model anew does
(`Fit.IsOf.reused_as_anew`). Nothing is compiled if the fit still has its executable.
-/
namespace Multilevel

/-- What a call asks for besides the model and where the fit is stored. -/
structure RunChoice where
  run : RunArguments := {}
  /-- Where the program is written to. -/
  programFile : Option String := none
  /-- Whether the draws get user-facing names. -/
  rename : Bool := true
  /-- The folder that the program is built in. -/
  folder : Option String := none
  /-- Whether the executable is kept. -/
  keepExecutable : Bool := true

namespace RunChoice

/-- A call that fits the model of other arguments. -/
def anew (r : RunChoice) (m : FitArguments) : FitArguments :=
  { m with
    reused := none, run := r.run, programFile := r.programFile, rename := r.rename
    folder := r.folder, keepExecutable := r.keepExecutable, file := none }

end RunChoice

/-- The disk once the text of a program was written where it is asked for. -/
def FitArguments.written (a : FitArguments) (code : String) (d : Disk) : Except Fault Disk :=
  match a.programFile with
  | some path => d.write (Path.place path) (.text code)
  | none => .ok d

/-- The build of a program that the arguments of a fit ask for. -/
def FitArguments.buildOf (a : FitArguments) (code : String) : BuildArguments :=
  ⟨code, a.buildOptions, a.folder, a.keepExecutable⟩

/-- The fits of a model: one that was fitted, and such a one after it was stored and loaded again or
got criteria. When it was fitted, an executable that was there was made of its program. -/
inductive Fit.IsOf (engine : Engine) (m : FitArguments) : Fit → Prop
  | fitted {session : SessionSettings} {w w' : Workspace} {f : Fit} (new : m.reused = none)
      (missing : ∀ file g, m.file = some file → w.disk.stored? file ≠ some (.fit g))
      (sound : ∀ e, w.disk.file? (Path.place f.compiled.executableFile) = some (.executable e) →
        e.program = f.compiled.source)
      (done : (m.fit engine session).run w = (.ok f, w')) : IsOf engine m f
  | stored {f : Fit} (own : IsOf engine m f) (file : String) : IsOf engine m (f.stored file)
  | withCriteria {f : Fit} (own : IsOf engine m f) (more : Settings) :
      IsOf engine m (f.withCriteria more)

/-- Whether a specification, what was generated from it and a compiled model are those of the model
that the arguments of a fit describe. -/
structure FitArguments.Describes (m : FitArguments) (engine : Engine) (s : Specification)
    (artifacts : Artifacts) (c : CompiledModel) : Prop where
  normalized : ∃ model, m.model.complete m.keepEffects m.keepInternal = .ok model ∧
    (Specification.normalize model).outcome = .ok s
  generated : ∃ data, BuildData.ofSpecification s = .ok data ∧ artifacts = .make s s.code data
  options : BuildOptions.ofSettings m.buildOptions = .ok c.options
  source : c.source = s.code
  identity : c.identity = c.options.identity s.code
  /-- The executable, if there is one, runs the program. -/
  handle : ∀ e, c.handle = some e → e.program = s.code
  /-- The engine could make an executable. -/
  compiled : ∃ folder found e,
    (engine.compile ((m.buildOf s.code).requestIn c.options folder) s.code found).outcome = .ok e

namespace Engine

variable {engine : Engine} {w w' : Workspace}

/-- A model that has its executable is ready at once. -/
theorem run_reload_of_handle {c : CompiledModel} {e : Executable} (ready : c.handle = some e)
    (w : Workspace) : (engine.reload c).run w = (.ok (c, e), w) := by
  unfold reload
  rw [ready]
  rfl

/-- A model that was built, and what the engine can make. -/
theorem build_eq_ok {a : BuildArguments} {c : CompiledModel} (reuses : engine.ReusesExecutables)
    (sound : ∀ e, w.disk.file? (Path.place c.executableFile) = some (.executable e) →
      e.program = c.source) (done : (engine.build a).run w = (.ok c, w')) :
    BuildOptions.ofSettings a.settings = .ok c.options ∧ c.source = a.source ∧
      c.identity = c.options.identity a.source ∧
      ∃ e, c.handle = some e ∧ e.program = a.source ∧ ∃ folder found e',
        (engine.compile (a.requestIn c.options folder) a.source found).outcome = .ok e' := by
  have same : (BuildCall.run ⟨a, engine⟩ w) = (.ok c, w') := done
  have steps := BuildCall.run_cases (c := ⟨a, engine⟩) reuses w
  rw [same] at steps
  rcases steps with ⟨e, failed, _⟩ | ⟨o, between, result, valid, settles, _, gets, own⟩
  · cases failed
  · obtain ⟨e, lines, rfl, rfl⟩ := own c rfl
    obtain ⟨found, answer⟩ := gets.compiled
    exact ⟨valid, rfl, rfl, e, rfl,
      gets.program_eq fun e stored => sound e (settles.executables _ e stored), a.folderIn w, found,
      e, answer⟩

end Engine

namespace FitArguments.Describes

variable {engine : Engine} {m : FitArguments} {s : Specification} {artifacts : Artifacts}
  {c : CompiledModel}

/-- The text that was generated is that of the specification. -/
theorem code_eq (described : m.Describes engine s artifacts c) : artifacts.code = s.code := by
  obtain ⟨data, _, rfl⟩ := described.generated
  rfl

/-- The compiled program is the text that was generated. -/
theorem source_eq (described : m.Describes engine s artifacts c) : c.source = artifacts.code :=
  described.source.trans described.code_eq.symm

/-- The engine can make an executable of the program whenever it is asked to with the options. -/
theorem makes (described : m.Describes engine s artifacts c)
    (deterministic : engine.IsDeterministic) (request : CompileRequest)
    (same : request.executableOf c.source = c.reloadRequest.executableOf c.source)
    (found : Option Executable) :
    ∃ e, (engine.compile request c.source found).outcome = .ok e := by
  obtain ⟨folder, before, e, made⟩ := described.compiled
  rw [described.source] at same ⊢
  exact deterministic.compiles ((m.buildOf s.code).requestIn c.options folder) request s.code before
    found e same.symm made

end FitArguments.Describes

namespace FitArguments

variable {engine : Engine} {a m : FitArguments} {f : Fit} {w between w' w'' : Workspace}
  {session : SessionSettings}

/-- Writing the text of a program takes nothing away. -/
theorem settles_writeProgram (a : FitArguments) (code : String) :
    (a.writeProgram code).Settles := by
  unfold writeProgram
  split
  · exact Work.settles_write _ _
  · exact Work.settles_pure _

/-- The draws of a run, with the names that are asked for. -/
def namedDraws (a : FitArguments) (engine : Engine) (artifacts : Artifacts)
    (executable : Executable) (config : RunConfig) : Work (Posterior Float) := do
  let draws ← engine.dispatch executable artifacts.data config
  let draws := draws.without artifacts.exclude
  if a.rename then Work.check (draws.rename artifacts.termNames) else pure draws

/-- A run gives a fit with its draws. -/
theorem runModel_eq (a : FitArguments) (engine : Engine) (model : ReadyModel)
    (config : RunConfig) : a.runModel engine model config =
      a.namedDraws engine model.artifacts model.executable config >>= fun draws =>
        pure ⟨model.specification, model.artifacts, model.compiled, draws, a.run.algorithm, none,
          []⟩ := by
  unfold runModel namedDraws
  simp only [bind_assoc]
  cases a.rename <;> rfl

/-- A new model is that of the arguments. -/
theorem describes_of_newModel (reuses : engine.ReusesExecutables) {ready : ReadyModel}
    (sound : ∀ e, w.disk.file? (Path.place ready.compiled.executableFile) =
      some (.executable e) → e.program = ready.compiled.source)
    (done : (a.newModel engine).run w = (.ok ready, w')) :
    a.Describes engine ready.specification ready.artifacts ready.compiled := by
  unfold newModel at done
  obtain ⟨model, _, completed, normalizing⟩ := Work.run_bind_eq_ok done
  obtain ⟨specification, reported, normalized, wrote⟩ := Work.run_bind_eq_ok normalizing
  obtain ⟨_, written, writing, generating⟩ := Work.run_bind_eq_ok wrote
  obtain ⟨data, _, generated, builds⟩ := Work.run_bind_eq_ok generating
  obtain ⟨compiled, built, building, reloads⟩ := Work.run_bind_eq_ok builds
  obtain ⟨complete, rfl⟩ := Work.run_check_eq_ok completed
  obtain ⟨arrays, rfl⟩ := Work.run_check_eq_ok generated
  rw [Work.run_report] at normalized
  obtain ⟨normal, rfl⟩ := Prod.mk.inj normalized
  obtain ⟨executable, handle⟩ := Option.isSome_iff_exists.mp (Engine.yields_build _ _ _ _ building)
  obtain ⟨⟨reloaded, own⟩, _, loading, returned⟩ := Work.run_bind_eq_ok reloads
  rw [Engine.run_reload_of_handle handle] at loading
  obtain ⟨same, rfl⟩ := Prod.mk.inj loading
  obtain ⟨rfl, rfl⟩ := Prod.mk.inj (Except.ok.inj same)
  obtain rfl := Except.ok.inj (Prod.mk.inj returned).1
  have settles := settles_writeProgram a specification.code
    { w with warnings := w.warnings ++ (Specification.normalize model).warnings }
  rw [writing] at settles
  obtain ⟨options, source, identity, e, own, program, made⟩ := Engine.build_eq_ok reuses
    (fun e stored => sound e (settles.executables _ e stored)) building
  exact {
    normalized := ⟨model, complete, normal⟩
    generated := ⟨data, arrays, rfl⟩
    options, source, identity
    handle := fun e' other => by
      obtain rfl := Option.some.inj (own.symm.trans other)
      exact program
    compiled := made }

/-- Storing a fit changes nothing but where it is stored. -/
theorem file_of_store {g : Fit} (done : (a.store f).run w = (.ok g, w')) :
    ∃ file, g = { f with file } := by
  unfold store at done
  split at done
  · rename_i path _
    rcases f.run_save path w with ⟨_, stored, _⟩ | ⟨_, _, failed, _⟩
    · obtain rfl := Except.ok.inj (Prod.mk.inj (stored.symm.trans done)).1
      exact ⟨_, rfl⟩
    · cases (Prod.mk.inj (failed.symm.trans done)).1
  · obtain rfl := Except.ok.inj (Prod.mk.inj done).1
    exact ⟨f.file, rfl⟩

/-- What is fitted is of the model of the arguments. -/
theorem describes_of_fitAnew (reuses : engine.ReusesExecutables) (new : m.reused = none)
    (sound : ∀ e, w.disk.file? (Path.place f.compiled.executableFile) = some (.executable e) →
      e.program = f.compiled.source)
    (done : (m.fitAnew engine session).run w = (.ok f, w')) :
    m.Describes engine f.specification f.artifacts f.compiled := by
  rw [fitAnew_eq] at done
  obtain ⟨⟨config, ready⟩, between, prepared, done⟩ := Work.run_bind_eq_ok done
  obtain ⟨drawn, ran, running, storing⟩ := Work.run_bind_eq_ok done
  obtain ⟨_, configured, reported, prepared⟩ := Work.run_bind_eq_ok prepared
  obtain ⟨model, made, preparing, returned⟩ := Work.run_bind_eq_ok prepared
  rw [Work.run_report] at reported
  obtain ⟨_, rfl⟩ := Prod.mk.inj reported
  obtain ⟨same, rfl⟩ := Prod.mk.inj returned
  obtain ⟨rfl, rfl⟩ := Prod.mk.inj (Except.ok.inj same)
  rw [runModel_eq] at running
  obtain ⟨draws, _, _, returned⟩ := Work.run_bind_eq_ok running
  obtain rfl := Except.ok.inj (Prod.mk.inj returned).1
  have anew : m.prepare engine = m.newModel engine := by rw [prepare, new]
  rw [anew] at preparing
  obtain ⟨file, rfl⟩ := file_of_store storing
  exact describes_of_newModel reuses
    (w := { w with warnings := w.warnings ++ (m.run.configure session).warnings }) sound preparing

/-- Writing the text of a program changes the disk and nothing else, or is refused. -/
theorem run_writeProgram (a : FitArguments) (code : String) (w : Workspace) :
    (a.writeProgram code).run w = match a.written code w.disk with
      | .ok disk => (.ok (), { w with disk })
      | .error e => (.error (.fault e), w) := by
  unfold writeProgram written
  cases a.programFile with
  | none => rfl
  | some path => exact Work.run_write path (.text code) w

/-- A fit that is stored nowhere is fitted at once. -/
theorem fit_of_file_eq_none (own : a.file = none) :
    a.fit engine session = a.fitAnew engine session := by
  unfold fit
  rw [own]
  rfl

/-- The model that was described is built anew, unless the text of its program cannot be written. -/
theorem run_newModel (deterministic : engine.IsDeterministic)
    (described : m.Describes engine f.specification f.artifacts f.compiled) (r : RunChoice)
    (admits : ∀ d, (r.anew m).written f.artifacts.code w.disk = .ok d →
      let b := (r.anew m).buildOf f.artifacts.code
      d.Admits (b.folderIn w) (b.requestIn f.compiled.options (b.folderIn w)) f.artifacts.code) :
    (∃ e w', (r.anew m).written f.artifacts.code w.disk = .error e ∧
      ((r.anew m).newModel engine).run w = (.error (.fault e), w')) ∨
    ∃ d e lines w', (r.anew m).written f.artifacts.code w.disk = .ok d ∧
      ((r.anew m).newModel engine).run w = (.ok ⟨f.specification, f.artifacts,
        let b := (r.anew m).buildOf f.artifacts.code
        Engine.builtFrom b f.compiled.options
          (b.requestIn f.compiled.options (b.folderIn w)) e lines, e⟩, w') ∧
      e.program = f.artifacts.code := by
  obtain ⟨model, complete, normal⟩ := described.normalized
  obtain ⟨data, arrays, generated⟩ := described.generated
  let warned : Workspace :=
    { w with warnings := w.warnings ++ (Specification.normalize model).warnings }
  have completed : (Work.check ((r.anew m).model.complete (r.anew m).keepEffects
      (r.anew m).keepInternal)).run w = (.ok model, w) := by
    rw [Work.run_check]
    exact congrArg (fun x => (Except.mapError IsFailure.toFailure x, w)) complete
  have normalized : (Work.report (Specification.normalize model)).run w =
      (.ok f.specification, warned) := by
    rw [Work.run_report, normal]
  have filled (v : Workspace) : (Work.check (BuildData.ofSpecification f.specification)).run v =
      (.ok data, v) := by
    rw [Work.run_check, arrays]
    rfl
  have writing := run_writeProgram (r.anew m) f.artifacts.code warned
  rw [described.code_eq] at writing admits ⊢
  unfold newModel
  rw [Work.run_bind_ok _ completed, Work.run_bind_ok _ normalized]
  dsimp only
  cases written : (r.anew m).written f.specification.code w.disk with
  | error e =>
    rw [show warned.disk = w.disk from rfl, written] at writing
    exact .inl ⟨e, warned, rfl, Work.run_bind_error _ writing⟩
  | ok d =>
    rw [show warned.disk = w.disk from rfl, written] at writing
    rw [Work.run_bind_ok _ writing, Work.run_bind_ok _ (filled _)]
    let b := (r.anew m).buildOf f.specification.code
    let request := b.requestIn f.compiled.options (b.folderIn w)
    have makes (found : Option Executable) :
        ∃ e, (engine.compile request f.specification.code found).outcome = .ok e := by
      rw [← described.source]
      exact described.makes deterministic request rfl found
    obtain ⟨e, lines, w', built, own⟩ := Engine.exists_build deterministic.reuses (a := b)
      (w := { warned with disk := d }) described.options (admits d written) makes
    refine .inr ⟨d, e, lines, w', rfl, ?_, own⟩
    rw [generated]
    exact (Work.run_bind_ok _ built).trans
      (Work.run_bind_ok _ (Engine.run_reload_of_handle (e := e) rfl w'))

/-- Naming the draws of a run only runs. -/
theorem onlyRuns_namedDraws (a : FitArguments) (engine : Engine) (artifacts : Artifacts)
    (executable : Executable) (config : RunConfig) :
    (a.namedDraws engine artifacts executable config).OnlyRuns := by
  refine Engine.onlyRuns_dispatch config |>.bind fun draws => ?_
  dsimp only
  split
  · exact Work.onlyRuns_check _
  · exact Work.onlyRuns_check (.ok _ : Except Failure _)

/-- A fit with a configuration that is stored nowhere runs the model that it prepared. -/
theorem run_fit_of_prepared (nowhere : a.file = none) {config : RunConfig} {model : ReadyModel}
    (configured : (Work.report (a.run.configure session)).run w = (.ok config, between))
    (prepared : (a.prepare engine).run between = (.ok model, w')) :
    (a.fit engine session).run w = (a.namedDraws engine model.artifacts model.executable config >>=
      fun draws => pure ⟨model.specification, model.artifacts, model.compiled, draws,
        a.run.algorithm, none, []⟩ : Work Fit).run w' := by
  have ready : (a.ready engine session).run w = (.ok (config, model), w') := by
    unfold FitArguments.ready
    rw [Work.run_bind_ok _ configured, Work.run_bind_ok _ prepared]
    rfl
  have stores : a.store = pure := by
    funext f
    rw [store, nowhere]
  rw [fit_of_file_eq_none nowhere, fitAnew_eq, Work.run_bind_ok _ ready, stores]
  dsimp only
  rw [bind_pure, runModel_eq]

end FitArguments

namespace Fit

/-- A fit of a model, kept or loaded, has all that the arguments describe. -/
theorem IsOf.describes {engine : Engine} {m : FitArguments} {f : Fit}
    (reuses : engine.ReusesExecutables) (own : f.IsOf engine m) :
    m.Describes engine f.specification f.artifacts f.compiled := by
  induction own with
  | @fitted session w w' f new missing sound done =>
    obtain ⟨warnings, ran⟩ := FitCall.run_of_missing (c := ⟨m, engine, session⟩) missing
    exact FitArguments.describes_of_fitAnew (w := { w with warnings }) reuses new sound
      (ran.symm.trans done)
  | stored own file described => exact { described with handle := fun e there => by cases there }
  | withCriteria own more described => exact described

/-- The options of a build that asks for none. -/
def standardOptions : BuildOptions :=
  ⟨BuildOptions.standardTranslator, [], .null, false, .text "model"⟩

/-- A build may ask for no options. -/
theorem ofSettings_nil : BuildOptions.ofSettings [] = .ok standardOptions := by
  rw [BuildOptions.ofSettings, List.map_nil, List.filter_nil, List.mergeSort_nil]
  rfl

/-- The folder that all models of the user share. -/
def sharedFolder : String := Path.join ({} : Workspace).home ".cache/hierstan"

/-- Where the shared folder is. -/
theorem place_sharedFolder : Path.place sharedFolder = ["home", ".cache", "hierstan"] := by
  decide +kernel

/-- The shared folder can be made on an empty disk. -/
theorem exists_sharedFolder :
    ∃ made, ({} : Disk).makeFolders (Path.place sharedFolder) = .ok made := by
  rw [place_sharedFolder]
  exact ⟨_, rfl⟩

/-- Nothing stands in the shared folder of an empty disk. -/
theorem find?_sharedFolder (name : String) :
    ({} : Disk).find? (Path.place sharedFolder ++ [name]) = none := by
  rw [place_sharedFolder]
  rfl

/-- A model whose data tell the sizes of its variables can be fitted in an empty workspace. -/
theorem exists_isOf_of_tellsSizes {m : FitArguments} {model : ModelArguments} {s : Specification}
    {data : BuildData} (plain : m = { model := m.model, rename := false })
    (complete : m.model.complete m.keepEffects m.keepInternal = .ok model)
    (normal : (Specification.normalize model).outcome = .ok s)
    (arrays : BuildData.ofSpecification s = .ok data) (tells : Rehearsal.TellsSizes data) :
    ∃ (f : Fit) (a : BuildArguments) (e : Executable) (lines : List String),
    f.IsOf (Rehearsal.engine {}) m ∧ ((m.fit (Rehearsal.engine {}) {}).run {}).1 = .ok f ∧
    f.compiled = Engine.builtFrom a standardOptions
      (a.requestIn standardOptions sharedFolder) e lines ∧ f.artifacts.code = a.source := by
  have deterministic := Rehearsal.isDeterministic {}
  obtain ⟨made, folders⟩ := exists_sharedFolder
  let r : RunChoice := { rename := false }
  let described : Fit := ⟨s, .make s s.code data,
    ⟨standardOptions.identity s.code, s.code, "", "", [], standardOptions, none⟩,
    ⟨[], ⟨[], []⟩, ⟨[], []⟩⟩, "sampling", none, []⟩
  have anew : r.anew m = m := by rw [plain]; rfl
  have unset : m.buildOptions = [] := by rw [plain]
  have unreused : m.reused = none := by rw [plain]
  have unstored : m.file = none := by rw [plain]
  have describes : m.Describes (Rehearsal.engine {}) described.specification
      described.artifacts described.compiled := {
    normalized := ⟨model, complete, normal⟩
    generated := ⟨data, arrays, rfl⟩
    options := unset ▸ ofSettings_nil
    source := rfl
    identity := rfl
    handle := fun e there => by cases there
    compiled := ⟨"", none, _, rfl⟩ }
  have given : ({} : RunArguments).configure {} = ⟨[], .ok (.sampling { silent := true })⟩ := by
    cbv
  have configured : (Work.report ((r.anew m).run.configure {})).run {} =
      (.ok (.sampling { silent := true }), {}) := by
    rw [show (r.anew m).run.configure {} = _ from given]
    rfl
  have named : '/' ∉ standardOptions.modelName.level.toList := by decide
  have valid := RunArguments.validate_of_configure (congrArg Reported.outcome given)
  rcases FitArguments.run_newModel (w := {}) deterministic describes r (fun d same => by
      obtain rfl := Except.ok.inj same
      exact BuildArguments.admits_of_free named folders find?_sharedFolder) with
    ⟨e, w', refused, _⟩ | ⟨d, e, lines, w', _, built, _⟩
  · cases refused
  · obtain ⟨draws, ended, drawn⟩ := tells.exists_dispatch valid (by decide) rfl e w'
    have ran := FitArguments.run_fit_of_prepared (a := r.anew m) rfl configured built
    have drawn : ((r.anew m).namedDraws (Rehearsal.engine {}) described.artifacts e
        (.sampling { silent := true })).run w' =
          (.ok (draws.without described.artifacts.exclude), ended) := by
      exact Work.run_bind_ok _ drawn
    dsimp only at ran
    rw [Work.run_bind_ok _ drawn] at ran
    have done := (congrArg (fun a : FitArguments => (a.fit (Rehearsal.engine {}) {}).run {})
      anew).symm.trans ran
    exact ⟨_, _, e, lines, .fitted (w := {}) unreused
      (fun file g own => by cases unstored.symm.trans own)
      (fun e there => by cases (Disk.file?_empty _).symm.trans there) done, congrArg Prod.fst done,
      rfl, rfl⟩

end Fit

end Multilevel
