import Multilevel.Fit.Run
import Multilevel.Proofs.Engine.Build

/-!
# The steps of a fit

A fit is looked up, made ready, run and stored. Only the last step stores a fit, and what the others
write is told by the arguments: the file of the program, and the files of a model that is reused.
-/
namespace Multilevel

/-- What the store of fits holds under a file: nothing, a fit, or something else. -/
def Disk.stored? (d : Disk) (file : String) : Option FileContent :=
  d.file? (Path.place (fitPath file))

namespace Fit

/-- A stored fit is found as it is, and nothing else happens. -/
theorem run_load?_of_stored {file : String} {f : Fit} {w : Workspace}
    (stored : w.disk.stored? file = some (.fit f)) :
    (load? file).run w = (.ok (some (f.stored (fitPath file))), w) := by
  have found : w.disk.find? (Path.place (fitPath file)) = some (.file (.fit f)) := by
    unfold Disk.stored? Disk.file? at stored
    split at stored
    · rename_i content there
      rw [there, Option.some.inj stored]
    · cases stored
  have looked : (Work.find? (fitPath file)).run w =
      (.ok (w.disk.find? (Path.place (fitPath file))), w) := rfl
  unfold load?
  rw [Work.run_bind_ok _ looked, found]
  rfl

/-- If no fit is stored, none is found, and at most a warning is issued. -/
theorem run_load?_of_not_stored {file : String} {w : Workspace}
    (missing : ∀ f, w.disk.stored? file ≠ some (.fit f)) :
    ∃ warnings, (load? file).run w = (.ok none, { w with warnings }) := by
  have looked : (Work.find? (fitPath file)).run w =
      (.ok (w.disk.find? (Path.place (fitPath file))), w) := rfl
  unfold load?
  rw [Work.run_bind_ok _ looked]
  cases found : w.disk.find? (Path.place (fitPath file)) with
  | none => exact ⟨w.warnings, rfl⟩
  | some entry =>
    cases entry with
    | folder => exact ⟨_, rfl⟩
    | file content =>
      cases content with
      | fit f => exact absurd (by rw [Disk.stored?, Disk.file?, found]) (missing f)
      | _ => exact ⟨_, rfl⟩

/-- Storing a fit changes its own entry if it returns, and no entry if not. -/
theorem run_save (f : Fit) (file : String) (w : Workspace) :
    (∃ w', (f.save file).run w = (.ok { f with file := some (fitPath file) }, w') ∧
      ∀ place, w'.disk.file? place = if place = Path.place (fitPath file)
        then some (.fit (f.stored (fitPath file))) else w.disk.file? place) ∨
    ∃ e w', (f.save file).run w = (.error e, w') ∧
      ∀ place, w'.disk.file? place = w.disk.file? place := by
  unfold save
  cases made : (Work.makeFolders (Path.parent (fitPath file))).run w with
  | mk outcome between =>
    have kept := (Work.keeps_makeFolders (Path.parent (fitPath file)) :
      (Work.makeFolders _).Keeps fun _ => True) w
    rw [made] at kept
    cases outcome with
    | error e =>
      rw [Work.run_bind_error _ made]
      exact .inr ⟨e, between, rfl, fun place => kept.files place trivial⟩
    | ok =>
      rw [Work.run_bind_ok _ made, Work.run_bind, Work.run_write]
      cases done : between.disk.write (Path.place (fitPath file))
        (.fit (f.stored (fitPath file))) with
      | error e => exact .inr ⟨_, between, rfl, fun place => kept.files place trivial⟩
      | ok disk =>
        refine .inl ⟨_, rfl, fun place => ?_⟩
        rw [← kept.files place trivial]
        exact Disk.file?_write done place

end Fit

namespace FitArguments

/-- Whether a fit writes nothing at some places but what it stores: neither its program nor the
files of a model that it reuses. -/
structure WritesApart (a : FitArguments) (kept : Path.Place → Prop) : Prop where
  /-- The program is written elsewhere. -/
  program : ∀ path, a.programFile = some path → ¬kept (Path.place path)
  /-- The files of a reused model are elsewhere. -/
  reused : ∀ f, a.reused = some f → ¬kept (Path.place f.compiled.programFile) ∧
    ¬kept (Path.place f.compiled.executableFile)

/-- The fit stored under the file that is asked for, if there is one. -/
def lookup (a : FitArguments) : Work (Option Fit) :=
  match a.file with
  | some file => Fit.load? file
  | none => return none

/-- The model of a fit: that of the fit that is reused, or a new one. -/
def prepare (a : FitArguments) (engine : Engine) : Work ReadyModel :=
  match a.reused with
  | some f => a.reuseModel engine f
  | none => a.newModel engine

/-- What comes before the run: its configuration and the model. -/
def ready (a : FitArguments) (engine : Engine) (session : SessionSettings) :
    Work (RunConfig × ReadyModel) := do
  let config ← Work.report (a.run.configure session)
  let model ← a.prepare engine
  return (config, model)

/-- What comes after the run: the fit is stored where it is asked for. -/
def store (a : FitArguments) (f : Fit) : Work Fit :=
  match a.file with
  | some file => f.save file
  | none => return f

variable {a : FitArguments} {engine : Engine} {session : SessionSettings}
  {kept : Path.Place → Prop}

/-- The steps of a fit that is not found. -/
theorem fitAnew_eq (a : FitArguments) (engine : Engine) (session : SessionSettings) :
    a.fitAnew engine session = a.ready engine session >>= fun (config, model) =>
      a.runModel engine model config >>= a.store := by
  unfold fitAnew ready prepare store
  cases a.reused <;> cases a.file <;> simp only [bind_assoc, pure_bind, bind_pure]

/-- Writing the program elsewhere keeps the files. -/
theorem WritesApart.keeps_writeProgram (apart : a.WritesApart kept) (code : String) :
    (a.writeProgram code).Keeps kept := by
  rw [writeProgram]
  split
  · rename_i path given
    exact Work.keeps_write (apart.program path given) fun fit => fit
  · exact Work.keeps_pure _

/-- Making a fit ready keeps the files of fits. -/
theorem WritesApart.keeps_ready (apart : a.WritesApart kept)
    (within : ∀ place, kept place → IsFitPlace place) : (a.ready engine session).Keeps kept := by
  refine (Work.keeps_report _).bind fun config => Work.Keeps.bind ?_ fun model => Work.keeps_pure _
  unfold prepare
  split
  · rename_i f given
    obtain ⟨program, executable⟩ := apart.reused f given
    exact (Work.keeps_report _).bind fun _ => (apart.keeps_writeProgram _).bind fun _ =>
      (Engine.keeps_reload program executable).bind fun _ => Work.keeps_pure _
  · refine (Work.keeps_check _).bind fun _ => (Work.keeps_report _).bind fun _ =>
      (apart.keeps_writeProgram _).bind fun _ => (Work.keeps_check _).bind fun _ => ?_
    refine (Engine.keeps_build within _).bind_of (Engine.yields_build _) fun compiled ready => ?_
    exact (Engine.keeps_reload_of_handle ready).bind fun _ => Work.keeps_pure _

/-- Running a model keeps all files. -/
theorem keeps_runModel (model : ReadyModel) (config : RunConfig) :
    (a.runModel engine model config).Keeps kept := by
  refine (Engine.keeps_dispatch _ _ _).bind fun draws => ?_
  dsimp only
  split
  · exact (Work.keeps_check _).bind fun _ => Work.keeps_pure _
  · exact (Work.keeps_pure _).bind fun _ => Work.keeps_pure _

end FitArguments

end Multilevel
