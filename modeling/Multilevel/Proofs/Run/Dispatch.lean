import Multilevel.Proofs.Draws.Parts
import Multilevel.Proofs.Run.Futures
import Multilevel.Proofs.Store.Keeps

/-!
# Dispatched runs

What a run that was checked asks of the engine under each strategy, and how it ends.
-/
namespace Multilevel

section Config

variable {c : SamplingConfig} {jobs : List ChainJob}

/-- A run that was checked has chains, and as many records of initial values if it has some. -/
theorem SamplingConfig.chains_of_validate (valid : c.validate = .ok ()) :
    1 ≤ c.chains.toInt ∧ ∀ records, c.inits = .perChain records →
      (records.length : Int) = c.chains.toInt := by
  simp only [SamplingConfig.validate, bind_eq_ok, liftM_eq_mapError, mapError_eq_ok] at valid
  obtain ⟨_, counts, inits⟩ := valid
  simp only [SamplingConfig.checkCounts, bind_eq_ok] at counts
  obtain ⟨_, chains, _⟩ := counts
  constructor
  · simp only [SamplingConfig.requireOne, Quantity.isBelow] at chains
    simpa using chains
  · intro records each
    simp only [SamplingConfig.checkInits, each] at inits
    split at inits
    · assumption
    · cases inits

/-- The numbers of the chains are those from one on. -/
theorem SamplingConfig.numbers_eq (c : SamplingConfig) :
    c.numbers = ChainResults.numbersTo c.chains.toInt := by
  rw [SamplingConfig.numbers, InitChoice.chainNumbers, ChainResults.numbersTo, List.map_map]
  rfl

/-- What the jobs of a run are made of. -/
theorem SamplingConfig.jobs_eq_ok : c.jobs = .ok jobs ↔ List.Forall₂ (fun number job =>
    job.number = number ∧ job.seed = c.seed ∧ c.inits.ofChain (number - 1) = .ok job.inits)
      (InitChoice.chainNumbers c.chains) jobs := by
  rw [SamplingConfig.jobs, mapM_eq_ok]
  have each (number : Nat) (job : ChainJob) : (do
      return (⟨number, c.seed, ← c.inits.ofChain (number - 1)⟩ : ChainJob)) =
        (.ok job : Except Fault ChainJob) ↔
      job.number = number ∧ job.seed = c.seed ∧ c.inits.ofChain (number - 1) = .ok job.inits := by
    rw [bind_eq_ok]
    constructor
    · rintro ⟨own, found, made⟩
      obtain rfl := pure_eq_ok.mp made
      exact ⟨rfl, rfl, found⟩
    · rintro ⟨rfl, seed, found⟩
      exact ⟨_, found, by rw [← seed]; rfl⟩
  simp only [each]

/-- Initial values are there for every chain of a run that was checked. -/
theorem SamplingConfig.exists_jobs (valid : c.validate = .ok ()) : ∃ jobs, c.jobs = .ok jobs := by
  refine exists_mapM_eq_ok fun number mem => ?_
  obtain ⟨k, below, rfl⟩ := List.mem_map.mp mem
  have own : ∃ own, c.inits.ofChain k = .ok own := by
    cases inits : c.inits with
    | random => exact ⟨_, rfl⟩
    | shared radius => exact ⟨_, rfl⟩
    | perChain records =>
      have count := (chains_of_validate valid).2 records inits
      have inside : k < records.length := by
        rw [List.mem_range] at below
        omega
      exact ⟨.own records[k], by simp only [Inits.ofChain, List.getElem?_eq_getElem inside]⟩
  obtain ⟨own, found⟩ := own
  exact ⟨⟨k + 1, c.seed, own⟩, by rw [Nat.add_sub_cancel, found]; rfl⟩

/-- The numbers of the jobs are those of the chains. -/
theorem SamplingConfig.numbers_jobs (made : c.jobs = .ok jobs) :
    jobs.map (fun job => (job.number : Int)) = c.numbers := by
  have each := (jobs_eq_ok.mp made).imp fun number job (own : _ ∧ _) =>
    show Int.ofNat number = (job.number : Int) from congrArg Int.ofNat own.1.symm
  have same := List.forall₂_map_left_iff.mpr (List.forall₂_map_right_iff.mpr each)
  rw [List.forall₂_eq_eq_eq] at same
  exact same.symm

/-- A job stands at the place of its number and has the initial values given for that place. -/
theorem SamplingConfig.place_of_mem_jobs (made : c.jobs = .ok jobs) {job : ChainJob}
    (mem : job ∈ jobs) :
    ∃ k, c.numbers[k]? = some (job.number : Int) ∧ c.inits.ofChain k = .ok job.inits := by
  obtain ⟨number, listed, own, _, inits⟩ :=
    exists_mem_of_forall₂ (List.Forall₂.flip (jobs_eq_ok.mp made)) mem
  obtain ⟨k, below, rfl⟩ := List.mem_map.mp listed
  refine ⟨k, ?_, inits⟩
  rw [List.mem_range] at below
  simp [SamplingConfig.numbers, InitChoice.chainNumbers, below, own]

/-- There is a job for each chain. -/
theorem SamplingConfig.length_jobs (valid : c.validate = .ok ()) (made : c.jobs = .ok jobs) :
    (jobs.length : Int) = c.chains.toInt := by
  have count := congrArg List.length (numbers_jobs made)
  rw [List.length_map, numbers_eq, ChainResults.numbersTo, List.length_map,
    List.length_range] at count
  have positive := (chains_of_validate valid).1
  omega

end Config

/-- The initial values of a chain that runs alone. -/
theorem ChainInits.ofChain_single (own : ChainInits) : own.single.ofChain 0 = .ok own := by
  cases own <;> rfl

namespace Engine

/-- The jobs of a run as futures. -/
def futures (engine : Engine) (executable : Executable) (data : BuildData) (c : SamplingConfig)
    (jobs : List ChainJob) (owned : Bool) : Futures :=
  ⟨jobs, engine.jobResult executable data c, owned⟩

variable {engine : Engine} {executable : Executable} {data : BuildData} {c : SamplingConfig}
  {jobs : List ChainJob}

/-- What becomes of the results of all jobs is the same wherever they are looked at. -/
theorem run_gather (owned : Bool) (w : Workspace) :
    ((engine.gather executable data c jobs).run w).1 =
      (engine.futures executable data c jobs owned).outcome := by
  rw [Futures.outcome, Futures.collected, gather]
  simp only [futures]
  cases collect (jobs.map fun job => (job, engine.jobResult executable data c job)) with
  | error e => rfl
  | ok results =>
    rw [Work.run_bind_ok _ (Work.run_check _ w), Work.run_check, Futures.conclude]
    cases ChainResults.merge results (jobs.length : Int) <;> rfl

/-- A run as futures asks for the draws of every chain, unless a setting is repeated, and then looks at
the results. -/
theorem exists_run_runFutures (executable : Executable) (data : BuildData)
    (made : c.jobs = .ok jobs) (w : Workspace) : ∃ asked : Workspace,
      asked.calls = w.calls ++ (if (repeatedSetting? reservedSettings c.settings).isNone then
        jobs.map fun job => .sample (c.jobRequest job) else []) ∧
      (engine.runFutures executable data c).run w =
        (engine.gather executable data c jobs).run asked := by
  obtain ⟨warned, same, first⟩ : ∃ warned : Workspace, warned.calls = w.calls ∧
      (if 1 < c.cores.toInt then Work.warn .coresIgnored else pure () : Work Unit).run w =
        (.ok (), warned) := by
    split
    · exact ⟨{ w with warnings := w.warnings ++ [.coresIgnored] }, rfl, Work.run_warn _ w⟩
    · exact ⟨w, rfl, rfl⟩
  have given : (Work.check c.jobs).run warned = (.ok jobs, warned) := by
    rw [made, Work.run_check]
    rfl
  rw [runFutures_eq, Work.run_bind_ok _ first, Work.run_bind_ok _ given, ← same]
  split
  · exact ⟨_, rfl, Work.run_bind_ok _ (Work.run_forM_note _ _ _)⟩
  · exact ⟨warned, (List.append_nil _).symm, rfl⟩

/-- A run as futures ends as its jobs say. -/
theorem run_runFutures (made : c.jobs = .ok jobs) (owned : Bool) (w : Workspace) :
    ((engine.runFutures executable data c).run w).1 =
      (engine.futures executable data c jobs owned).outcome := by
  obtain ⟨asked, _, ran⟩ := exists_run_runFutures executable data made w
  rw [ran]
  exact run_gather owned asked

/-- A run that was checked ends as its jobs say if it uses futures. -/
theorem run_dispatch_futures (valid : c.validate = .ok ()) (strategy : c.strategy = .futures)
    (made : c.jobs = .ok jobs) (owned : Bool) (w : Workspace) :
    ((engine.dispatch executable data (.sampling c)).run w).1 =
      (engine.futures executable data c jobs owned).outcome := by
  have checked : (RunConfig.sampling c).validate = .ok () := valid
  rw [dispatch, checked, Work.run_bind_ok _ (Work.run_check _ w)]
  simp only [if_pos strategy]
  exact run_runFutures made owned w

/-- A run that was checked is one request if it does not use futures. -/
theorem run_dispatch_batch (valid : c.validate = .ok ()) (strategy : c.strategy ≠ .futures)
    (w : Workspace) : ((engine.dispatch executable data (.sampling c)).run w).1 =
      if (repeatedSetting? reservedSettings c.settings).isSome then .error (.fault .unsupported)
      else match engine.sample executable data c.batchRequest with
        | .error e => .error (failureOf .batch e)
        | .ok p => if p.chains = c.numbers then .ok p
          else .error (.merge (.unexpected p.chains c.numbers)) := by
  have checked : (RunConfig.sampling c).validate = .ok () := valid
  rw [dispatch, checked, Work.run_bind_ok _ (Work.run_check _ w)]
  simp only [if_neg strategy]
  rw [runBatch]
  split
  · rfl
  · simp only []
    rw [Work.run_bind_ok _ (Work.run_note _ w)]
    cases engine.sample executable data c.batchRequest with
    | error e => rfl
    | ok p =>
      rw [Work.run_bind_ok _ (Work.run_check _ _)]
      by_cases same : p.chains = c.numbers
      · simp only [same, ne_eq, not_true_eq_false, if_false, if_true]
        rfl
      · simp only [same, ne_eq, not_false_eq_true, if_false, if_true]
        rfl

end Engine

end Multilevel
