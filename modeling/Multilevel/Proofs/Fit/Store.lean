import Multilevel.Engine.Rehearsal
import Multilevel.Proofs.Fit.Steps
import Multilevel.Proofs.Model.Specification

/-!
# The store of fits

Whatever calls are made, one after the other and whatever comes of each, the store of fits is never
left in between: a call that finds a fit returns it and does nothing else, a call that fits anew
stores what it returns under its own file, and a call that fails leaves all entries as they were
(`FitCall.store_spec`).
-/
namespace Multilevel

/-- A call of the whole pipeline. -/
structure FitCall where
  arguments : FitArguments
  engine : Engine
  session : SessionSettings

/-- A fit that knows where it is stored is stored there as it is, but for its executable. -/
theorem Fit.stored_of_file {f : Fit} {path : String} (known : f.file = some path) :
    { f with compiled := f.compiled.stored } = f.stored path := by
  rw [Fit.stored, ← known]

namespace FitCall

/-- How a call ends, and the workspace afterwards. -/
def run (c : FitCall) (w : Workspace) : Except Failure Fit × Workspace :=
  (c.arguments.fit c.engine c.session).run w

/-- The workspace after calls, one after the other. -/
def runAll (calls : List FitCall) (w : Workspace) : Workspace :=
  calls.foldl (fun w c => (c.run w).2) w

/-- Whether a call writes nothing in the files of fits but what it stores. -/
def WritesApart (c : FitCall) : Prop := c.arguments.WritesApart IsFitPlace

/-- What a call does to the store of fits. -/
structure MindsStore (c : FitCall) (w : Workspace) : Prop where
  /-- A stored fit is returned with the path that it is stored under, and nothing else happens: the
  engine gets no request, and no file is changed. -/
  found : ∀ file f, c.arguments.file = some file → w.disk.stored? file = some (.fit f) →
    c.run w = (.ok (f.stored (fitPath file)), w)
  /-- Only the entry of the call's own file may change. -/
  others : ∀ other, (∀ file, c.arguments.file = some file →
      Path.place (fitPath other) ≠ Path.place (fitPath file)) →
    (c.run w).2.disk.stored? other = w.disk.stored? other
  /-- If no fit was stored, a call that returns has stored the fit that it returns. -/
  returned : ∀ file f, c.arguments.file = some file →
    (∀ g, w.disk.stored? file ≠ some (.fit g)) → (c.run w).1 = .ok f →
      f.file = some (fitPath file) ∧
        (c.run w).2.disk.stored? file = some (.fit (f.stored (fitPath file)))
  /-- A call that fails changes no entry. -/
  raised : ∀ e, (c.run w).1 = .error e →
    ∀ other, (c.run w).2.disk.stored? other = w.disk.stored? other

variable {c : FitCall} {calls : List FitCall} {w : Workspace}

/-- Before a call that fits anew stores its fit, it changes no entry. -/
theorem WritesApart.keeps_fitted (apart : c.WritesApart) :
    (c.arguments.ready c.engine c.session >>= fun (config, model) =>
      c.arguments.runModel c.engine model config).Keeps IsFitPlace :=
  (FitArguments.WritesApart.keeps_ready apart fun _ mem => mem).bind fun _ =>
    FitArguments.keeps_runModel _ _

/-- What a call that fits anew does to the store. -/
theorem WritesApart.run_fitAnew (apart : c.WritesApart) (w : Workspace) :
    let ended := (c.arguments.fitAnew c.engine c.session).run w
    (∃ e, ended.1 = .error e ∧ ∀ other, ended.2.disk.stored? other = w.disk.stored? other) ∨
    (∃ f, ended.1 = .ok f ∧ c.arguments.file = none ∧
      ∀ other, ended.2.disk.stored? other = w.disk.stored? other) ∨
    ∃ f file, ended.1 = .ok f ∧ c.arguments.file = some file ∧ f.file = some (fitPath file) ∧
      ∀ other, ended.2.disk.stored? other =
        if Path.place (fitPath other) = Path.place (fitPath file)
        then some (.fit (f.stored (fitPath file))) else w.disk.stored? other := by
  have kept := apart.keeps_fitted w
  have steps : c.arguments.fitAnew c.engine c.session =
      (c.arguments.ready c.engine c.session >>= fun (config, model) =>
        c.arguments.runModel c.engine model config) >>= c.arguments.store := by
    rw [FitArguments.fitAnew_eq, bind_assoc]
  rw [steps, Work.run_bind]
  cases fitted : (c.arguments.ready c.engine c.session >>= fun (config, model) =>
      c.arguments.runModel c.engine model config).run w with
  | mk outcome between =>
    rw [fitted] at kept
    have same (other : String) : between.disk.stored? other = w.disk.stored? other :=
      kept.files _ ⟨other, rfl⟩
    cases outcome with
    | error e => exact .inl ⟨e, rfl, same⟩
    | ok f =>
      cases given : c.arguments.file with
      | none =>
        have stored : c.arguments.store f = pure f := by rw [FitArguments.store, given]
        dsimp only
        rw [stored, Work.run_pure]
        exact .inr (.inl ⟨f, rfl, rfl, same⟩)
      | some file =>
        have stored : c.arguments.store f = f.save file := by rw [FitArguments.store, given]
        dsimp only
        rw [stored]
        rcases f.run_save file between with ⟨after, done, files⟩ | ⟨e, after, failed, files⟩
        · rw [done]
          refine .inr (.inr ⟨_, file, rfl, rfl, rfl, fun other => ?_⟩)
          rw [← same other]
          exact files _
        · rw [failed]
          exact .inl ⟨e, rfl, fun other => (files _).trans (same other)⟩

/-- A call that finds no fit fits anew, after at most a warning. -/
theorem run_of_missing (missing : ∀ file f, c.arguments.file = some file →
    w.disk.stored? file ≠ some (.fit f)) :
    ∃ warnings, c.run w =
      (c.arguments.fitAnew c.engine c.session).run { w with warnings } := by
  unfold run FitArguments.fit
  cases given : c.arguments.file with
  | none => exact ⟨w.warnings, rfl⟩
  | some file =>
    obtain ⟨warnings, looked⟩ := Fit.run_load?_of_not_stored fun f => missing file f given
    exact ⟨warnings, by rw [Work.run_bind_ok _ looked]⟩

/-- A call that finds a fit returns it and does nothing else. -/
theorem run_of_stored {file : String} {f : Fit} (given : c.arguments.file = some file)
    (stored : w.disk.stored? file = some (.fit f)) :
    c.run w = (.ok (f.stored (fitPath file)), w) := by
  unfold run FitArguments.fit
  rw [given]
  exact Work.run_bind_ok _ (Fit.run_load?_of_stored stored)

/-- What a call does to the store, whatever the store holds. -/
theorem WritesApart.mindsStore (apart : c.WritesApart) (w : Workspace) : c.MindsStore w := by
  by_cases hit : ∃ file f, c.arguments.file = some file ∧ w.disk.stored? file = some (.fit f)
  · obtain ⟨file, f, given, stored⟩ := hit
    have ran := run_of_stored given stored
    refine ⟨fun _ _ => run_of_stored, fun other _ => ?_, fun own g given' missing => ?_,
      fun e failed => ?_⟩
    · rw [ran]
    · obtain rfl := Option.some.inj (given.symm.trans given')
      exact absurd stored (missing f)
    · rw [ran] at failed
      cases failed
  -- Without a stored fit all that is done is told by how the call fits anew.
  · push Not at hit
    obtain ⟨warnings, ran⟩ := run_of_missing hit
    refine ⟨fun _ _ => run_of_stored, ?_, ?_, ?_⟩ <;> rw [ran]
    all_goals
      rcases apart.run_fitAnew { w with warnings } with
        ⟨e, failed, same⟩ | ⟨f, done, none, same⟩ | ⟨f, file, done, given, path, stored⟩
    · exact fun other _ => same other
    · exact fun other _ => same other
    · intro other differs
      rw [stored, if_neg (differs file given)]
    · intro own g _ _ returned
      rw [failed] at returned
      cases returned
    · intro own g given
      rw [none] at given
      cases given
    · intro own g given' _ returned
      obtain rfl := Option.some.inj (given.symm.trans given')
      obtain rfl := Except.ok.inj (done.symm.trans returned)
      exact ⟨path, by rw [stored, if_pos rfl]⟩
    · exact fun _ _ => same
    · exact fun _ _ => same
    · intro e raised
      rw [done] at raised
      cases raised

/-- A stored fit stays as it is. -/
theorem WritesApart.stays (apart : c.WritesApart) {file : String} {f : Fit}
    (stored : w.disk.stored? file = some (.fit f)) :
    (c.run w).2.disk.stored? file = some (.fit f) := by
  have minds := apart.mindsStore w
  by_cases own : ∃ given, c.arguments.file = some given ∧
      Path.place (fitPath file) = Path.place (fitPath given)
  · obtain ⟨given, asked, same⟩ := own
    have there : w.disk.stored? given = some (.fit f) := by
      rw [← stored, Disk.stored?, Disk.stored?, same]
    rw [minds.found given f asked there, stored]
  · push Not at own
    rw [minds.others file own, stored]

/-- A stored fit stays as it is through any calls. -/
theorem stays_runAll (apart : ∀ c ∈ calls, c.WritesApart) {file : String} {f : Fit}
    (stored : w.disk.stored? file = some (.fit f)) :
    (runAll calls w).disk.stored? file = some (.fit f) := by
  induction calls generalizing w with
  | nil => exact stored
  | cons c rest ih =>
    exact ih (fun later mem => apart later (List.mem_cons_of_mem c mem))
      ((apart c List.mem_cons_self).stays stored)

/-- The workspace after calls in two parts. -/
theorem runAll_append (before after : List FitCall) (w : Workspace) :
    runAll (before ++ after) w = runAll after (runAll before w) := List.foldl_append

/-- A call that returned is repeated from the store: the fit is the same, but for its executable. -/
theorem WritesApart.again (apart : c.WritesApart) {file : String} {f : Fit}
    (given : c.arguments.file = some file) (done : (c.run w).1 = .ok f)
    (later : ∀ c ∈ calls, c.WritesApart) {other : FitCall}
    (same : other.arguments.file = some file) :
    other.run (runAll calls (c.run w).2) =
      (.ok { f with compiled := f.compiled.stored }, runAll calls (c.run w).2) := by
  have minds := apart.mindsStore w
  have kept : ∃ g, (c.run w).2.disk.stored? file = some (.fit g) ∧
      g.stored (fitPath file) = { f with compiled := f.compiled.stored } := by
    by_cases hit : ∃ g, w.disk.stored? file = some (.fit g)
    · obtain ⟨g, stored⟩ := hit
      have ran := minds.found file g given stored
      refine ⟨g, by rw [ran, stored], ?_⟩
      rw [ran] at done
      obtain rfl := Except.ok.inj done
      rfl
    · push Not at hit
      obtain ⟨path, stored⟩ := minds.returned file f given hit done
      exact ⟨_, stored, (Fit.stored_of_file path).symm⟩
  obtain ⟨g, stored, equal⟩ := kept
  rw [run_of_stored same (stays_runAll later stored), equal]

end FitCall

end Multilevel
