import Multilevel.Proofs.Fit.Plan
import Multilevel.Proofs.Fit.Reused
import Multilevel.Proofs.Model.Shape

/-!
# Fits to data of one shape

A fit has one executable made, at most, and the file of it is told by the program and the options of
the build. Data of one shape have one program, so that a fit to other data of that shape finds the
executable that the first fit left (`Specification.program_of_shape`).
-/
namespace Multilevel

namespace Engine

/-- Whether one executable is asked for between two workspaces, and nothing else is compiled. Nothing
is taken away before or after. -/
structure GetsOnce (engine : Engine) (request : CompileRequest) (source : String) (w w' : Workspace)
    (result : Option Executable) : Prop where
  gets : ∃ before made, Gets engine request source before made result ∧
    w.disk.Settles before.disk ∧ before.calls = w.calls ∧ made.disk.Settles w'.disk ∧
    ∃ asked, w'.calls = made.calls ++ asked ∧ ∀ call ∈ asked, ¬call.IsCompile

namespace GetsOnce

variable {engine : Engine} {request : CompileRequest} {source : String} {w w' w'' : Workspace}
  {result : Option Executable}

/-- Asking for one executable, and then for nothing that has to be compiled. -/
theorem trans (once : GetsOnce engine request source w w' result)
    (settles : w'.disk.Settles w''.disk) {asked : List EngineCall}
    (calls : w''.calls = w'.calls ++ asked) (draws : ∀ call ∈ asked, ¬call.IsCompile) :
    GetsOnce engine request source w w'' result := by
  obtain ⟨before, made, gets, first, silent, second, early, own, none⟩ := once.gets
  refine ⟨before, made, gets, first, silent, second.trans settles, early ++ asked, ?_, ?_⟩
  · rw [calls, own, List.append_assoc]
  · intro call mem
    rcases List.mem_append.mp mem with one | other
    · exact none call one
    · exact draws call other

/-- What stands at the file of the executable is reused, unless a new one is forced. -/
theorem calls_of_has (once : GetsOnce engine request source w w' result)
    (unforced : request.force = false)
    (there : w.disk.has (Path.place request.executableFile) = true) :
    ∃ asked, w'.calls = w.calls ++ .compile request true :: asked ∧
      ∀ call ∈ asked, ¬call.IsCompile := by
  obtain ⟨before, made, gets, first, silent, _, asked, own, none⟩ := once.gets
  have before' := first.present _ there
  refine ⟨asked, ?_, none⟩
  cases gets with
  | reused _ _ calls => rw [own, calls, silent, List.append_assoc, List.singleton_append]
  | failed needed => cases unforced.symm.trans (needed before')
  | made needed => cases unforced.symm.trans (needed before')

/-- Something stands at the file of an executable that was got. -/
theorem has {e : Executable} (once : GetsOnce engine request source w w' (some e)) :
    w'.disk.has (Path.place request.executableFile) = true := by
  obtain ⟨before, made, gets, _, _, second, _⟩ := once.gets
  refine second.present _ ?_
  cases gets with
  | reused there _ _ disk =>
    rw [disk]
    exact there
  | made _ _ _ written => exact Disk.has_of_write written

end GetsOnce

end Engine

namespace FitArguments

variable {engine : Engine} {a : FitArguments} {model : ModelArguments} {s : Specification}
  {w : Workspace}

/-- Storing a fit takes nothing away. -/
theorem settles_store (a : FitArguments) (f : Fit) : (a.store f).Settles := by
  unfold store
  split
  · exact (Work.settles_makeFolders _).bind fun _ =>
      (Work.settles_writeContent (fun _ same => by cases same) _).bind fun _ => Work.settles_pure _
  · exact Work.settles_pure _

/-- The request for the executable of a program. -/
def requestFor (a : FitArguments) (code : String) (o : BuildOptions) (w : Workspace) :
    CompileRequest :=
  (a.buildOf code).requestIn o ((a.buildOf code).folderIn w)

/-- What a build has compiled, since some earlier state: nothing if it is refused, and one executable
otherwise. -/
theorem run_build_cases (reuses : engine.ReusesExecutables) (b : BuildArguments) {begun : Workspace}
    (settles : w.disk.Settles begun.disk) (silent : begun.calls = w.calls) :
    let ended := (engine.build b).run begun
    (∃ e, ended.1 = .error e ∧ ended.2.calls = w.calls) ∨
    ∃ o result, BuildOptions.ofSettings b.settings = .ok o ∧
      Engine.GetsOnce engine (b.requestIn o (b.folderIn begun)) b.source w ended.2 result ∧
      ∀ c, ended.1 = .ok c → ∃ e lines, result = some e ∧
        c = Engine.builtFrom b o (b.requestIn o (b.folderIn begun)) e lines := by
  have steps := BuildCall.run_cases (c := ⟨b, engine⟩) reuses begun
  unfold BuildCall.run at steps
  rcases steps with ⟨e, failed, _, calls⟩ | ⟨o, before, result, valid, kept, calls, gets, own⟩
  · exact .inl ⟨e, failed, calls.trans silent⟩
  · exact .inr ⟨o, result, valid, ⟨before, _, gets, settles.trans kept, calls.trans silent, .refl _,
      [], (List.append_nil _).symm, by simp⟩, own⟩

/-- What a new model has compiled: nothing if it is refused, and one executable of its program
otherwise. -/
theorem run_newModel_cases (reuses : engine.ReusesExecutables)
    (complete : a.model.complete a.keepEffects a.keepInternal = .ok model)
    (normal : (Specification.normalize model).outcome = .ok s) (w : Workspace) :
    let ended := (a.newModel engine).run w
    (∃ e, ended.1 = .error e ∧ ended.2.calls = w.calls) ∨
    ∃ o result, BuildOptions.ofSettings a.buildOptions = .ok o ∧
      Engine.GetsOnce engine (a.requestFor s.code o w) s.code w ended.2 result ∧
      ∀ ready, ended.1 = .ok ready → ready.artifacts.code = s.code ∧ ∃ e lines, result = some e ∧
        ready.compiled = Engine.builtFrom (a.buildOf s.code) o (a.requestFor s.code o w) e lines := by
  let warned : Workspace :=
    { w with warnings := w.warnings ++ (Specification.normalize model).warnings }
  have completed : (Work.check (a.model.complete a.keepEffects a.keepInternal)).run w =
      (.ok model, w) := by
    rw [Work.run_check, complete]
    rfl
  have normalized : (Work.report (Specification.normalize model)).run w = (.ok s, warned) := by
    rw [Work.run_report, normal]
  have settles := settles_writeProgram a s.code warned
  unfold newModel
  rw [Work.run_bind_ok _ completed, Work.run_bind_ok _ normalized]
  dsimp only
  rw [Work.run_bind]
  rw [run_writeProgram] at settles ⊢
  cases written : a.written s.code warned.disk with
  | error e => exact .inl ⟨_, rfl, rfl⟩
  | ok disk =>
    rw [written] at settles
    dsimp only
    rw [Work.run_bind, Work.run_check]
    cases filled : BuildData.ofSpecification s with
    | error e => exact .inl ⟨_, rfl, rfl⟩
    | ok data =>
      -- The build starts where the text of the program was written.
      have steps : _ ∨ _ := run_build_cases reuses (a.buildOf s.code)
        (show w.disk.Settles (Workspace.disk { warned with disk }) from settles) rfl
      dsimp only [Except.mapError]
      rw [Work.run_bind, show (⟨s.code, a.buildOptions, a.folder, a.keepExecutable⟩ :
        BuildArguments) = a.buildOf s.code from rfl]
      cases built : (engine.build (a.buildOf s.code)).run { warned with disk } with
      | mk outcome after =>
        rw [built] at steps
        cases outcome with
        | error e =>
          rcases steps with ⟨_, _, calls⟩ | ⟨o, result, valid, once, _⟩
          · exact .inl ⟨e, rfl, calls⟩
          · exact .inr ⟨o, result, valid, once, fun _ returned => by cases returned⟩
        | ok c =>
          obtain ⟨e, handle⟩ := Option.isSome_iff_exists.mp
            (Engine.yields_build _ _ _ _ built)
          rcases steps with ⟨_, failed, _⟩ | ⟨o, result, valid, once, own⟩
          · cases failed
          · dsimp only
            rw [Work.run_bind_ok _ (Engine.run_reload_of_handle handle after)]
            refine .inr ⟨o, result, valid, once, fun ready returned => ?_⟩
            obtain rfl := Except.ok.inj returned
            exact ⟨rfl, own c rfl⟩

/-- Running a model and storing its fit has nothing compiled, takes nothing away and keeps what was
generated and compiled. -/
theorem run_runModel_store (a : FitArguments) (engine : Engine) (ready : ReadyModel)
    (config : RunConfig) (w : Workspace) :
    let ended := (a.runModel engine ready config >>= a.store).run w
    w.disk.Settles ended.2.disk ∧
      (∃ asked, ended.2.calls = w.calls ++ asked ∧ ∀ call ∈ asked, ¬call.IsCompile) ∧
      ∀ f, ended.1 = .ok f → f.artifacts = ready.artifacts ∧ f.compiled = ready.compiled := by
  have only := a.onlyRuns_namedDraws engine ready.artifacts ready.executable config
  obtain ⟨asked, calls, draws⟩ := only.asks w
  have disk := only.disk w
  rw [runModel_eq, bind_assoc, Work.run_bind]
  cases ran : (a.namedDraws engine ready.artifacts ready.executable config).run w with
  | mk outcome between =>
    rw [ran] at calls disk
    cases outcome with
    | error e => exact ⟨disk ▸ .refl _, ⟨asked, calls, draws⟩, fun _ returned => by cases returned⟩
    | ok drawn =>
      dsimp only
      rw [pure_bind]
      refine ⟨disk ▸ settles_store a _ between,
        ⟨asked, (isUnheard_store a _ between).trans calls, draws⟩, fun f returned => ?_⟩
      obtain ⟨file, rfl⟩ := file_of_store (Prod.ext returned rfl)
      exact ⟨rfl, rfl⟩

/-- What a fit of a new model has compiled: nothing if it is refused, and one executable of its
program otherwise. -/
theorem run_fit_cases (reuses : engine.ReusesExecutables) (new : a.reused = none)
    (complete : a.model.complete a.keepEffects a.keepInternal = .ok model)
    (normal : (Specification.normalize model).outcome = .ok s)
    (missing : ∀ file g, a.file = some file → w.disk.stored? file ≠ some (.fit g))
    (session : SessionSettings) : let ended := (a.fit engine session).run w
    (∃ e, ended.1 = .error e ∧ ended.2.calls = w.calls) ∨
    ∃ o result, BuildOptions.ofSettings a.buildOptions = .ok o ∧
      Engine.GetsOnce engine (a.requestFor s.code o w) s.code w ended.2 result ∧
      ∀ f, ended.1 = .ok f → f.artifacts.code = s.code ∧ ∃ e lines, result = some e ∧
        f.compiled = Engine.builtFrom (a.buildOf s.code) o (a.requestFor s.code o w) e lines := by
  obtain ⟨warnings, looked⟩ := FitCall.run_of_missing (c := ⟨a, engine, session⟩) missing
  have ran : (a.fit engine session).run w = (a.fitAnew engine session).run { w with warnings } :=
    looked
  have anew : a.prepare engine = a.newModel engine := by rw [prepare, new]
  rw [ran, fitAnew_eq, ready, bind_assoc, Work.run_bind, Work.run_report]
  cases configured : (a.run.configure session).outcome with
  | error e => exact .inl ⟨e, rfl, rfl⟩
  | ok config =>
    dsimp only
    let begun : Workspace := { w with warnings := warnings ++ (a.run.configure session).warnings }
    have steps := run_newModel_cases reuses complete normal begun
    rw [bind_assoc, anew, Work.run_bind]
    cases prepared : (a.newModel engine).run begun with
    | mk outcome between =>
      rw [prepared] at steps
      cases outcome with
      | error e =>
        rcases steps with ⟨_, _, calls⟩ | ⟨o, result, valid, once, _⟩
        · exact .inl ⟨e, rfl, calls⟩
        · exact .inr ⟨o, result, valid, ⟨once.gets⟩, fun _ returned => by cases returned⟩
      | ok ready =>
        rcases steps with ⟨_, failed, _⟩ | ⟨o, result, valid, once, own⟩
        · cases failed
        · dsimp only
          obtain ⟨settles, ⟨asked, calls, draws⟩, kept⟩ :=
            run_runModel_store a engine ready config between
          refine .inr ⟨o, result, valid, ⟨(once.trans settles calls draws).gets⟩,
            fun f returned => ?_⟩
          obtain ⟨artifacts, compiled⟩ := kept f returned
          rw [artifacts, compiled]
          exact own ready rfl

/-- A fit of a new model finds what stands at the file of its executable, unless a new one is
forced: it asks at most once for an executable, and once if it returns without having been stored. -/
theorem exists_calls_of_has (reuses : engine.ReusesExecutables) (new : a.reused = none)
    (complete : a.model.complete a.keepEffects a.keepInternal = .ok model)
    (normal : (Specification.normalize model).outcome = .ok s) {o : BuildOptions}
    (valid : BuildOptions.ofSettings a.buildOptions = .ok o) (unforced : o.force = false)
    (there : w.disk.has (Path.place (a.requestFor s.code o w).executableFile) = true)
    (session : SessionSettings) : let ended := (a.fit engine session).run w
    ∃ asked, ended.2.calls = w.calls ++ asked ∧
      (∀ call ∈ asked, call.IsCompile → call = .compile (a.requestFor s.code o w) true) ∧
      ∀ f, ended.1 = .ok f →
        (∀ file g, a.file = some file → w.disk.stored? file ≠ some (.fit g)) →
        (∃ call ∈ asked, call.IsCompile) ∧ f.artifacts.code = s.code ∧ ∃ e lines,
          f.compiled = Engine.builtFrom (a.buildOf s.code) o (a.requestFor s.code o w) e lines := by
  by_cases stored : ∃ file g, a.file = some file ∧ w.disk.stored? file = some (.fit g)
  · obtain ⟨file, g, given, found⟩ := stored
    have ran : (a.fit engine session).run w = (.ok (g.stored (fitPath file)), w) :=
      FitCall.run_of_stored (c := ⟨a, engine, session⟩) given found
    rw [ran]
    exact ⟨[], (List.append_nil _).symm, by simp, fun _ _ missing => absurd found
      (missing file g given)⟩
  · have missing (file : String) (g : Fit) (given : a.file = some file) :
        w.disk.stored? file ≠ some (.fit g) := fun found => stored ⟨file, g, given, found⟩
    rcases run_fit_cases reuses new complete normal missing session with
      ⟨e, failed, calls⟩ | ⟨p, result, valid', once, own⟩
    · refine ⟨[], by rw [calls, List.append_nil], by simp, fun f returned => ?_⟩
      cases failed.symm.trans returned
    · obtain rfl := Except.ok.inj (valid.symm.trans valid')
      obtain ⟨asked, calls, draws⟩ := once.calls_of_has unforced there
      refine ⟨_, calls, fun call mem compiles => ?_, fun f returned _ => ?_⟩
      · rcases List.mem_cons.mp mem with rfl | other
        · rfl
        · exact absurd compiles (draws call other)
      · obtain ⟨code, e, lines, _, compiled⟩ := own f returned
        exact ⟨⟨_, List.mem_cons_self, trivial⟩, code, e, lines, compiled⟩

/-- Other data complete the description of a model as the given data do. -/
theorem complete_withData {m : ReuseArguments} {keepEffects keepInternal : Bool}
    (complete : m.complete keepEffects keepInternal = .ok model) (data : DataSource) :
    { m with data := some data }.complete keepEffects keepInternal =
      .ok { model with data } := by
  unfold ReuseArguments.complete at complete ⊢
  split at complete
  · rename_i formula _ given _
    rw [given]
    rw [← Except.ok.inj complete]
  · cases complete

end FitArguments

namespace Specification

/-- What normalization makes of data of one shape, whatever the number of rows, the numbers and the
levels of the rows, is one and the same but for the data, and so is the program.

A fit of the model leaves an executable where its compiled model says. As long as something stands
there, a fit of the model to the other data that builds in the same folder, unforced, has nothing
made: whatever comes of it, it asks at most once for an executable, and finds the one that is there.
If it returns, it has asked, and its compiled model has the same program and the same files. -/
theorem program_of_shape {a : ModelArguments} {data : DataSource} {s t : Specification}
    (left : (normalize a).outcome = .ok s) (right : (normalize { a with data }).outcome = .ok t)
    (shape : s.data.HaveOneShape t.data
      (Cleaning.neededColumns s.formula s.autocorrelation)) :
    t = { s with data := t.data } ∧ t.code = s.code ∧
    ∀ (engine : Engine) (m : FitArguments) (session : SessionSettings) (w after : Workspace)
      (f : Fit), engine.ReusesExecutables → m.reused = none → m.keepExecutable = true →
      m.model.complete m.keepEffects m.keepInternal = .ok a →
      (∀ file g, m.file = some file → w.disk.stored? file ≠ some (.fit g)) →
      (m.fit engine session).run w = (.ok f, after) →
      f.artifacts.code = s.code ∧
      after.disk.has (Path.place f.compiled.executableFile) = true ∧
      ∀ (session' : SessionSettings) (later : Workspace) (run : RunArguments)
        (programFile file : Option String) (rename : Bool),
        let second : FitArguments := { m with
          model := { m.model with data := some data }, run, programFile, file, rename }
        f.compiled.options.force = false → later.home = w.home →
        later.disk.has (Path.place f.compiled.executableFile) = true →
        let ended := (second.fit engine session').run later
        ∃ asked, ended.2.calls = later.calls ++ asked ∧
          (∀ call ∈ asked, call.IsCompile →
            ∃ request, call = .compile request true ∧
              request.executableFile = f.compiled.executableFile) ∧
          ∀ g, ended.1 = .ok g →
            (∀ name h, file = some name → later.disk.stored? name ≠ some (.fit h)) →
            (∃ call ∈ asked, call.IsCompile) ∧ g.artifacts.code = f.artifacts.code ∧
              g.compiled.source = f.compiled.source ∧
              g.compiled.executableFile = f.compiled.executableFile := by
  have code := code_of_shape left right shape
  refine ⟨eq_of_shape left right shape, code, ?_⟩
  intro engine m session w after f reuses new keep complete missing done
  have steps := FitArguments.run_fit_cases reuses new complete left missing session
  rw [done] at steps
  rcases steps with ⟨_, failed, _⟩ | ⟨o, result, valid, once, own⟩
  · cases failed
  obtain ⟨generated, e, lines, rfl, compiled⟩ := own f rfl
  have file : f.compiled.executableFile = (m.requestFor s.code o w).executableFile := by
    rw [compiled]
    rfl
  refine ⟨generated, file ▸ once.has, fun session' later run programFile given rename => ?_⟩
  intro second unforced home there ended
  have options : f.compiled.options = o := by
    rw [compiled]
    rfl
  -- The second fit asks for the same executable in the same folder.
  have request : second.requestFor t.code o later = m.requestFor s.code o w := by
    have build : second.buildOf t.code = m.buildOf s.code := by rw [code]; rfl
    have folder : (m.buildOf s.code).folderIn later = (m.buildOf s.code).folderIn w := by
      rw [BuildArguments.folderIn, BuildArguments.folderIn, home, show (m.buildOf s.code).keep = true
        from keep, if_pos rfl, if_pos rfl]
    rw [FitArguments.requestFor, FitArguments.requestFor, build, folder]
  obtain ⟨asked, calls, reused, returns⟩ := FitArguments.exists_calls_of_has (a := second)
    reuses new (FitArguments.complete_withData complete data) right valid (options ▸ unforced)
    (by rw [request, ← file]; exact there) session'
  refine ⟨asked, calls, fun call mem compiles => ?_, fun g returned missing' => ?_⟩
  · exact ⟨_, reused call mem compiles, by rw [request, file]⟩
  · obtain ⟨compiles, code', e', lines', compiled'⟩ := returns g returned missing'
    rw [generated, compiled, compiled', code', request]
    exact ⟨compiles, code, code, rfl⟩

/-- The small model with groups that are given as a factor. -/
def grouped : ModelArguments where
  formula := sample.formula
  data := .table ⟨3, [("y", .int #[2, 3, 5].toVector), ("x", .int #[0, 1, 4].toVector),
    ("g", Column.withLevels (.text #[some "a", some "b", some "a"].toVector) ["a", "b"])]⟩

/-- Other data of the same shape, with more rows. -/
def regrouped : DataSource :=
  .table ⟨4, [("y", .int #[8, 1, 1, 0].toVector), ("x", .int #[7, 0, 3, 3].toVector),
    ("g", Column.withLevels (.text #[some "b", some "b", some "a", some "b"].toVector)
      ["a", "b"])]⟩

/-- The call that fits this model, whose draws keep the names of the program's variables. -/
def groupedFit : FitArguments where
  model := { formula := some grouped.formula, data := some grouped.data }
  rename := false

/-- The small model is fitted, and then to more data of the same shape, with the executable of the
first fit. -/
theorem regrouped_reuses : ∃ s t, (normalize grouped).outcome = .ok s ∧
    (normalize { grouped with data := regrouped }).outcome = .ok t ∧
    s.data.rows = 3 ∧ t.data.rows = 4 ∧ t.code = s.code ∧
    ∃ f w, (groupedFit.fit (Rehearsal.engine {}) {}).run {} = (.ok f, w) ∧
      let second : FitArguments :=
        { groupedFit with model := { groupedFit.model with data := some regrouped } }
      ∃ asked, ((second.fit (Rehearsal.engine {}) {}).run { w with home := "home" }).2.calls =
          w.calls ++ asked ∧
        ∀ call ∈ asked, call.IsCompile → ∃ request, call = .compile request true ∧
          request.executableFile = f.compiled.executableFile := by
  obtain ⟨s, left, computed⟩ := exists_of_any (normalize grouped).outcome
    (fun s => (s.data.rows == 3 && (BuildData.ofSpecification s).toOption.any Rehearsal.tells) &&
      (normalize { grouped with data := regrouped }).outcome.toOption.any fun t : Specification =>
        t.data.rows == 4 && decide (∀ name ∈ s.data.names ++ t.data.names,
          s.data.levelsOf? name = t.data.levelsOf? name)) (by decide +kernel)
  rw [Bool.and_eq_true, Bool.and_eq_true] at computed
  obtain ⟨data, arrays, told⟩ := exists_of_any _ _ computed.1.2
  obtain ⟨t, right, computed'⟩ := exists_of_any _ _ computed.2
  simp only [Bool.and_eq_true, beq_iff_eq, decide_eq_true_eq] at computed computed'
  obtain ⟨_, code, fits⟩ := program_of_shape left right
    (Frame.haveOneShape_of_names computed'.2 _)
  obtain ⟨f, a, e, lines, _, done, compiled, _⟩ := Fit.exists_isOf_of_tellsSizes (m := groupedFit)
    rfl rfl left arrays (.of_tells told)
  obtain ⟨w, ran⟩ : ∃ w, (groupedFit.fit (Rehearsal.engine {}) {}).run {} = (.ok f, w) :=
    ⟨_, Prod.ext done rfl⟩
  obtain ⟨_, there, finds⟩ := fits (Rehearsal.engine {}) groupedFit {} {} w f
    (Rehearsal.isDeterministic {}).reuses rfl rfl rfl (fun _ _ given => by cases given) ran
  obtain ⟨asked, calls, reused, _⟩ := finds {} { w with home := "home" } {} none none false
    (by rw [compiled]; rfl) rfl there
  exact ⟨s, t, left, right, computed.1.1, computed'.1, code, f, w, ran, asked, calls, reused⟩

end Specification

end Multilevel
