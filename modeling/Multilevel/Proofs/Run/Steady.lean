import Multilevel.Proofs.EndAlike
import Multilevel.Proofs.Store.Keeps
import Multilevel.Run.Dispatch

/-!
# Runs do not look around

How a run ends depends on the executable, the data and its configuration; it is the same in every
workspace, and the same for executables of one program if the engine's answers are. A run asks for
draws; it has nothing compiled and leaves the disk as it is.
-/
namespace Multilevel

/-- Whether a request is one to make an executable. -/
def EngineCall.IsCompile : EngineCall → Prop
  | .compile _ _ => True
  | .sample _ | .approximate _ => False

/-- A request for draws is none to make an executable. -/
theorem EngineCall.not_isCompile_sample (request : SampleRequest) :
    ¬(EngineCall.sample request).IsCompile := id

/-- A request for an approximation is none to make an executable. -/
theorem EngineCall.not_isCompile_approximate (request : VariationalRequest) :
    ¬(EngineCall.approximate request).IsCompile := id

namespace Work

variable {ε α β γ : Type}

/-- Whether work ends in the same way in every workspace, has nothing compiled and leaves the disk
as it is. -/
structure OnlyRuns (work : Work α) : Prop where
  steady : ∀ w w' : Workspace, (work.run w).1 = (work.run w').1
  asks : ∀ w : Workspace, ∃ asked, (work.run w).2.calls = w.calls ++ asked ∧
    ∀ call ∈ asked, ¬call.IsCompile
  disk : ∀ w : Workspace, (work.run w).2.disk = w.disk

/-- Work that makes no request, leaves the disk and ends in the same way everywhere. -/
theorem OnlyRuns.of_silent {work : Work α} (steady : ∀ w w' : Workspace,
    (work.run w).1 = (work.run w').1) (same : ∀ w : Workspace, (work.run w).2.calls = w.calls)
    (disk : ∀ w : Workspace, (work.run w).2.disk = w.disk) : work.OnlyRuns :=
  ⟨steady, fun w => ⟨[], by rw [same, List.append_nil], by simp⟩, disk⟩

/-- A computation without effects only runs. -/
theorem onlyRuns_check [IsFailure ε] (x : Except ε α) : (check x).OnlyRuns :=
  .of_silent (fun w w' => by rw [run_check, run_check]) (fun w => by rw [run_check])
    fun w => by rw [run_check]

/-- A warning only runs. -/
theorem onlyRuns_warn (warning : Warning) : (warn warning).OnlyRuns :=
  .of_silent (fun _ _ => rfl) (fun _ => rfl) fun _ => rfl

/-- A refusal and what would follow it only run. -/
theorem onlyRuns_refuse_bind [IsFailure ε] (e : ε) (f : α → Work β) :
    ((refuse e : Work α) >>= f).OnlyRuns :=
  .of_silent (fun _ _ => rfl) (fun _ => rfl) fun _ => rfl

/-- Requests for draws only run. -/
theorem onlyRuns_forM_note (as : List α) {call : α → EngineCall}
    (draws : ∀ a, ¬(call a).IsCompile) : (as.forM fun a => note (call a)).OnlyRuns := by
  refine ⟨fun w w' => by rw [run_forM_note, run_forM_note], fun w => ?_,
    fun w => by rw [run_forM_note]⟩
  refine ⟨as.map call, by rw [run_forM_note], fun asked mem => ?_⟩
  obtain ⟨a, _, rfl⟩ := List.mem_map.mp mem
  exact draws a

/-- A request for draws only runs. -/
theorem onlyRuns_note {call : EngineCall} (draws : ¬call.IsCompile) : (note call).OnlyRuns :=
  ⟨fun _ _ => rfl, fun _ => ⟨[call], rfl, by simpa using draws⟩, fun _ => rfl⟩

/-- A step that is taken under a condition alone only runs if it does. -/
theorem OnlyRuns.optional {p : Prop} [Decidable p] {step : Work Unit} (each : step.OnlyRuns) :
    (if p then step else pure ()).OnlyRuns := by
  split
  · exact each
  · exact onlyRuns_check (.ok () : Except Failure Unit)

/-- Work that only runs has one outcome in any two workspaces. -/
theorem OnlyRuns.exists_outcome {x : Work α} (only : x.OnlyRuns) (w w' : Workspace) :
    ∃ outcome after after', x.run w = (outcome, after) ∧ x.run w' = (outcome, after') :=
  ⟨(x.run w).1, (x.run w).2, (x.run w').2, rfl, Prod.ext (only.steady w' w) rfl⟩

/-- Steps that only run do so together. -/
theorem OnlyRuns.bind {x : Work α} {f : α → Work β} (first : x.OnlyRuns)
    (second : ∀ a, (f a).OnlyRuns) : (x >>= f).OnlyRuns := by
  refine ⟨fun w w' => ?_, fun w => ?_, fun w => ?_⟩
  · obtain ⟨outcome, between, between', done, done'⟩ := first.exists_outcome w w'
    rw [run_bind, run_bind, done, done']
    cases outcome with
    | ok a => exact (second a).steady between between'
    | error => rfl
  · obtain ⟨asked, calls, draws⟩ := first.asks w
    rw [run_bind]
    cases done : x.run w with
    | mk outcome between =>
      rw [done] at calls
      cases outcome with
      | error => exact ⟨asked, calls, draws⟩
      | ok a =>
        obtain ⟨more, calls', draws'⟩ := (second a).asks between
        refine ⟨asked ++ more, ?_, fun call mem => ?_⟩
        · exact calls'.trans (by rw [calls, List.append_assoc])
        · rcases List.mem_append.mp mem with early | late
          · exact draws call early
          · exact draws' call late
  · have left := first.disk w
    rw [run_bind]
    cases done : x.run w with
    | mk outcome between =>
      rw [done] at left
      cases outcome with
      | error => exact left
      | ok a => exact ((second a).disk between).trans left

end Work

namespace Engine

variable {engine : Engine} {executable other : Executable} {data : BuildData}

/-- A run as futures only runs. -/
theorem onlyRuns_runFutures (c : SamplingConfig) :
    (engine.runFutures executable data c).OnlyRuns := by
  have gathered (jobs : List ChainJob) : (engine.gather executable data c jobs).OnlyRuns :=
    (Work.onlyRuns_check _).bind fun _ => Work.onlyRuns_check _
  rw [runFutures_eq]
  refine (Work.onlyRuns_warn _).optional.bind fun _ => (Work.onlyRuns_check _).bind fun jobs => ?_
  exact (Work.onlyRuns_forM_note jobs fun _ => EngineCall.not_isCompile_sample _).optional.bind
    fun _ => gathered jobs

/-- A run with one request only runs. -/
theorem onlyRuns_runBatch (c : SamplingConfig) :
    (engine.runBatch executable data c).OnlyRuns := by
  unfold runBatch
  split
  · exact Work.onlyRuns_refuse_bind _ _
  · refine (Work.onlyRuns_note (EngineCall.not_isCompile_sample _)).bind fun _ =>
      (Work.onlyRuns_check _).bind fun draws => ?_
    split
    · exact Work.onlyRuns_refuse_bind _ _
    · exact Work.onlyRuns_check (.ok draws : Except Failure _)

/-- An approximation only runs. -/
theorem onlyRuns_runVariational (c : VariationalConfig) :
    (engine.runVariational executable data c).OnlyRuns := by
  refine (Work.onlyRuns_check _).bind fun inits => ?_
  split
  · exact Work.onlyRuns_refuse_bind _ _
  · exact (Work.onlyRuns_note (EngineCall.not_isCompile_approximate _)).bind fun _ =>
      Work.onlyRuns_check _

/-- A run ends in the same way in every workspace, and changes nothing on the disk. -/
theorem onlyRuns_dispatch (config : RunConfig) :
    (engine.dispatch executable data config).OnlyRuns := by
  refine (Work.onlyRuns_check _).bind fun _ => ?_
  cases config with
  | variational c => exact onlyRuns_runVariational c
  | sampling c =>
    dsimp only
    split
    · exact onlyRuns_runFutures c
    · exact onlyRuns_runBatch c

end Engine

end Multilevel
