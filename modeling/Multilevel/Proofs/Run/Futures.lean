import Mathlib
import Multilevel.Proofs.Outcome
import Multilevel.Run.Dispatch

/-!
# Runs as futures

The jobs of a run are handed to a pool one after the other. Those handed over finish in any order,
at any time. Once all are handed over, the caller takes their results in the order of the chains
and waits for each that has not finished. At the first failure it waits for all jobs, and a pool
that was made for the run is waited for at its end. Whatever the order in which the jobs finish, all
runs end, with one outcome, after every job has finished (`Futures.endsWith_outcome`).
-/
namespace Multilevel

/-- Jobs that are run as futures. -/
structure Futures where
  /-- The jobs in the order in which they are handed over. -/
  jobs : List ChainJob
  /-- How each job ends. -/
  result : ChainJob → Except ChainCause (ChainResult Float)
  /-- Whether the pool was made for the run. -/
  owned : Bool

namespace Futures

/-- What the caller is doing. -/
inductive Phase where
  | submitting
  /-- The results taken so far. -/
  | taking (results : ChainResults Float)
  /-- A job failed, and the others are waited for. -/
  | waiting (e : ChainError)
  /-- Nothing more is taken. -/
  | closing (taken : Except ChainError (ChainResults Float))
  | ended (outcome : Except Failure (Posterior Float))

/-- Whether the caller has taken all that it takes. -/
def Phase.IsLate : Phase → Prop
  | closing _ | ended _ => True
  | _ => False

/-- A state of a run. -/
structure State where
  /-- The jobs handed over, in order. -/
  submitted : List ChainJob := []
  /-- The positions of the jobs that have finished, in the order in which they did. -/
  finished : List Nat := []
  phase : Phase := .submitting

/-- Whether no job that was handed over is still running. -/
def State.Idle (s : State) : Prop := ∀ k < s.submitted.length, k ∈ s.finished

/-- The results in the order of the jobs, or the failure of the first job that failed. -/
def collected (f : Futures) : Except ChainError (ChainResults Float) :=
  Engine.collect (f.jobs.map fun job => (job, f.result job))

/-- How a run ends after what was taken. -/
def conclude (f : Futures) :
    Except ChainError (ChainResults Float) → Except Failure (Posterior Float)
  | .ok results => ChainResults.merge results f.jobs.length
  | .error e => .error (.chain e)

/-- How a run ends. -/
def outcome (f : Futures) : Except Failure (Posterior Float) := f.conclude f.collected

/-- One step of a run: of its caller, or of a job that finishes. -/
inductive Step (f : Futures) (s : State) : State → Prop
  | submit {job : ChainJob} (phase : s.phase = .submitting)
      (next : f.jobs[s.submitted.length]? = some job) :
      Step f s { s with submitted := s.submitted ++ [job] }
  | submitted (phase : s.phase = .submitting) (all : f.jobs.length ≤ s.submitted.length) :
      Step f s { s with phase := .taking [] }
  | finish {k : Nat} (handed : k < s.submitted.length) (running : k ∉ s.finished) :
      Step f s { s with finished := s.finished ++ [k] }
  | take {results : ChainResults Float} {job : ChainJob} {result : ChainResult Float}
      (phase : s.phase = .taking results) (next : f.jobs[results.length]? = some job)
      (finished : results.length ∈ s.finished) (done : f.result job = .ok result) :
      Step f s { s with phase := .taking (results ++ [result]) }
  | fail {results : ChainResults Float} {job : ChainJob} {cause : ChainCause}
      (phase : s.phase = .taking results) (next : f.jobs[results.length]? = some job)
      (finished : results.length ∈ s.finished) (failed : f.result job = .error cause) :
      Step f s { s with phase := .waiting ⟨.chain job.number, cause⟩ }
  | raise {e : ChainError} (phase : s.phase = .waiting e) (idle : s.Idle) :
      Step f s { s with phase := .closing (.error e) }
  | gather {results : ChainResults Float} (phase : s.phase = .taking results)
      (all : f.jobs.length ≤ results.length) : Step f s { s with phase := .closing (.ok results) }
  | close {taken : Except ChainError (ChainResults Float)} (phase : s.phase = .closing taken)
      (idle : f.owned = true → s.Idle) : Step f s { s with phase := .ended (f.conclude taken) }

/-- The states that a run can come to. -/
def Reachable (f : Futures) : State → Prop := Relation.ReflTransGen f.Step {}

/-- Whether all runs end, with one outcome, after each job was handed over once and has finished. -/
structure EndsWith (f : Futures) (outcome : Except Failure (Posterior Float)) : Prop where
  /-- No run goes on for ever. -/
  finite : Acc (fun later earlier => f.Step earlier later) {}
  /-- A run that has not ended can go on. -/
  live : ∀ s, f.Reachable s → (∃ outcome, s.phase = .ended outcome) ∨ ∃ t, f.Step s t
  /-- A run ends with the outcome. -/
  ended : ∀ s, f.Reachable s → ∀ other, s.phase = .ended other → other = outcome
  /-- Nothing is returned or raised before each job was handed over once and has finished. -/
  late : ∀ s, f.Reachable s → s.phase.IsLate →
    s.submitted = f.jobs ∧ s.finished.Perm (List.range f.jobs.length)

section Invariant

/-- What is known in each phase. -/
def Known (f : Futures) (s : State) : Prop :=
  match s.phase with
  | .submitting => True
  | .taking results => s.submitted = f.jobs ∧ (∀ k < results.length, k ∈ s.finished) ∧
    List.Forall₂ (fun job result => f.result job = .ok result) (f.jobs.take results.length) results
  | .waiting e => s.submitted = f.jobs ∧ f.collected = .error e
  | .closing taken => s.submitted = f.jobs ∧ s.Idle ∧ f.collected = taken
  | .ended outcome => s.submitted = f.jobs ∧ s.Idle ∧ f.outcome = outcome

/-- What holds in every state of a run. -/
structure Invariant (f : Futures) (s : State) : Prop where
  /-- The jobs are handed over in their order, each once. -/
  order : s.submitted = f.jobs.take s.submitted.length
  /-- No job finishes twice. -/
  distinct : s.finished.Nodup
  /-- Only jobs that were handed over finish. -/
  handed : ∀ k ∈ s.finished, k < s.submitted.length
  /-- The phase of the caller. -/
  known : f.Known s

variable {f : Futures} {s t : State}

/-- The results are taken in the order of the jobs. -/
theorem collected_eq_mapM (f : Futures) : f.collected = f.jobs.mapM fun job =>
    (f.result job).mapError fun cause => ⟨.chain job.number, cause⟩ := List.mapM_map

/-- The results of jobs none of which failed. -/
theorem collected_eq_ok {results : ChainResults Float} : f.collected = .ok results ↔
    List.Forall₂ (fun job result => f.result job = .ok result) f.jobs results := by
  rw [collected_eq_mapM, mapM_eq_ok]
  simp only [mapError_eq_ok]

/-- The failure of the first job that failed. -/
theorem collected_eq_error (results : ChainResults Float) {job : ChainJob} {cause : ChainCause}
    (before : List.Forall₂ (fun job result => f.result job = .ok result)
      (f.jobs.take results.length) results)
    (next : f.jobs[results.length]? = some job) (failed : f.result job = .error cause) :
    f.collected = .error ⟨.chain job.number, cause⟩ := by
  obtain ⟨inside, own⟩ := List.getElem?_eq_some_iff.mp next
  have parts : f.jobs = f.jobs.take results.length ++ job :: f.jobs.drop (results.length + 1) := by
    rw [← own, ← List.drop_eq_getElem_cons inside, List.take_append_drop]
  rw [collected_eq_mapM, parts]
  exact mapM_append_eq_error (mapM_eq_ok.mpr (before.imp fun _ _ done => mapError_eq_ok.mpr done))
    (by rw [failed]; rfl)

/-- Once all jobs are handed over they stand as given. -/
theorem Invariant.complete (inv : f.Invariant s) (all : f.jobs.length ≤ s.submitted.length) :
    s.submitted = f.jobs := by
  rw [inv.order, List.take_of_length_le all]

/-- A run starts as it should. -/
theorem invariant_start (f : Futures) : f.Invariant {} where
  order := rfl
  distinct := List.nodup_nil
  handed := by simp
  known := trivial

/-- What is known stays known when a job finishes. -/
theorem Known.finish (known : f.Known s) (k : Nat) :
    f.Known { s with finished := s.finished ++ [k] } := by
  have stays {j : Nat} (mem : j ∈ s.finished) : j ∈ s.finished ++ [k] := List.mem_append_left _ mem
  unfold Known at known ⊢
  cases phase : s.phase with
  | submitting => trivial
  | taking results =>
    rw [phase] at known
    obtain ⟨all, done, taken⟩ := known
    exact ⟨all, fun j below => stays (done j below), taken⟩
  | waiting e => rwa [phase] at known
  | closing taken =>
    rw [phase] at known
    obtain ⟨all, idle, own⟩ := known
    exact ⟨all, fun j below => stays (idle j below), own⟩
  | ended outcome =>
    rw [phase] at known
    obtain ⟨all, idle, own⟩ := known
    exact ⟨all, fun j below => stays (idle j below), own⟩

/-- Every step keeps what holds in every state. -/
theorem Invariant.step (inv : f.Invariant s) (step : f.Step s t) : f.Invariant t := by
  have known := inv.known
  unfold Known at known
  cases step with
  | @submit job phase next =>
    obtain ⟨inside, own⟩ := List.getElem?_eq_some_iff.mp next
    refine ⟨?_, inv.distinct, fun k mem => ?_, ?_⟩
    · rw [List.length_append, List.length_singleton, List.take_succ_eq_append_getElem inside, own,
        ← inv.order]
    · rw [List.length_append]
      exact Nat.lt_add_right _ (inv.handed k mem)
    · simp only [Known, phase]
  | submitted phase all =>
    exact ⟨inv.order, inv.distinct, inv.handed, inv.complete all, by simp, by simp⟩
  | @finish k handed running =>
    refine ⟨inv.order, ?_, fun j mem => ?_, inv.known.finish k⟩
    · refine List.nodup_append.mpr ⟨inv.distinct, List.nodup_singleton k, ?_⟩
      intro j mem _ last same
      rw [same, List.mem_singleton.mp last] at mem
      exact running mem
    · rcases List.mem_append.mp mem with before | last
      · exact inv.handed j before
      · rwa [List.mem_singleton.mp last]
  | @take results job result phase next finished done =>
    rw [phase] at known
    obtain ⟨all, taken, own⟩ := known
    obtain ⟨inside, equal⟩ := List.getElem?_eq_some_iff.mp next
    refine ⟨inv.order, inv.distinct, inv.handed, all, fun k below => ?_, ?_⟩
    · rw [List.length_append, List.length_singleton] at below
      rcases Nat.lt_succ_iff_lt_or_eq.mp below with before | rfl
      · exact taken k before
      · exact finished
    · rw [List.length_append, List.length_singleton, List.take_succ_eq_append_getElem inside, equal]
      exact List.rel_append own (.cons done .nil)
  | fail phase next finished failed =>
    rw [phase] at known
    obtain ⟨all, _, own⟩ := known
    exact ⟨inv.order, inv.distinct, inv.handed, all, collected_eq_error _ own next failed⟩
  | raise phase idle =>
    rw [phase] at known
    exact ⟨inv.order, inv.distinct, inv.handed, known.1, idle, known.2⟩
  | gather phase all =>
    rw [phase] at known
    obtain ⟨complete, taken, own⟩ := known
    rw [List.take_of_length_le all] at own
    refine ⟨inv.order, inv.distinct, inv.handed, complete, fun k below => taken k ?_,
      collected_eq_ok.mpr own⟩
    exact Nat.lt_of_lt_of_le (complete ▸ below) all
  | close phase idle =>
    rw [phase] at known
    obtain ⟨complete, all, own⟩ := known
    exact ⟨inv.order, inv.distinct, inv.handed, complete, all, congrArg f.conclude own⟩

/-- What holds in every state of a run. -/
theorem invariant_of_reachable (reach : f.Reachable s) : f.Invariant s := by
  induction reach with
  | refl => exact f.invariant_start
  | tail _ step inv => exact inv.step step

end Invariant

section Ending

/-- How many steps a phase may still have before it. -/
def Phase.rank (jobs : Nat) : Phase → Nat
  | submitting => jobs + 4
  | taking results => jobs - results.length + 3
  | waiting _ => 2
  | closing _ => 1
  | ended _ => 0

/-- How many steps a run may still take. -/
def remaining (f : Futures) (s : State) : Nat :=
  (f.jobs.length - s.submitted.length) + (f.jobs.length - s.finished.length) +
    s.phase.rank f.jobs.length

variable {f : Futures} {s t : State}

/-- No more jobs finish than were handed over. -/
theorem Invariant.finished_le (inv : f.Invariant s) : s.finished.length ≤ s.submitted.length := by
  have inside : s.finished ⊆ List.range s.submitted.length :=
    fun k mem => List.mem_range.mpr (inv.handed k mem)
  simpa using (inv.distinct.subperm inside).length_le

/-- Every step leaves fewer steps to take. -/
theorem Invariant.remaining_lt (inv : f.Invariant s) (step : f.Step s t) :
    f.remaining t < f.remaining s := by
  have handed : s.submitted.length ≤ f.jobs.length := by
    rw [inv.order, List.length_take]
    exact Nat.min_le_right _ _
  cases step with
  | submit phase next =>
    have below := (List.getElem?_eq_some_iff.mp next).1
    simp only [remaining, List.length_append, List.length_singleton]
    omega
  | submitted phase all =>
    simp only [remaining, phase, Phase.rank, List.length_nil]
    omega
  | @finish k below running =>
    have later := inv.step (.finish below running)
    have count := later.finished_le
    simp only [List.length_append, List.length_singleton] at count
    simp only [remaining, List.length_append, List.length_singleton]
    omega
  | take phase next =>
    have below := (List.getElem?_eq_some_iff.mp next).1
    simp only [remaining, phase, Phase.rank, List.length_append, List.length_singleton]
    omega
  | fail phase =>
    simp only [remaining, phase, Phase.rank]
    omega
  | raise phase =>
    simp only [remaining, phase, Phase.rank]
    omega
  | gather phase =>
    simp only [remaining, phase, Phase.rank]
    omega
  | close phase =>
    simp only [remaining, phase, Phase.rank]
    omega

/-- No run goes on for ever. -/
theorem Invariant.acc (inv : f.Invariant s) :
    Acc (fun later earlier => f.Step earlier later) s := by
  induction left : f.remaining s using Nat.strongRecOn generalizing s with
  | _ count ih =>
    refine ⟨s, fun t step => ?_⟩
    exact ih (f.remaining t) (left ▸ inv.remaining_lt step) (inv.step step) rfl

/-- A job is still running, or none is. -/
theorem exists_running_or_idle (s : State) :
    (∃ k < s.submitted.length, k ∉ s.finished) ∨ s.Idle := by
  by_cases idle : s.Idle
  · exact .inr idle
  · unfold State.Idle at idle
    push Not at idle
    exact .inl idle

/-- A run that has not ended can go on. -/
theorem Invariant.progress (inv : f.Invariant s) :
    (∃ outcome, s.phase = .ended outcome) ∨ ∃ t, f.Step s t := by
  have known := inv.known
  unfold Known at known
  cases phase : s.phase with
  | submitting =>
    right
    by_cases more : s.submitted.length < f.jobs.length
    · exact ⟨_, .submit phase (List.getElem?_eq_getElem more)⟩
    · exact ⟨_, .submitted phase (Nat.le_of_not_lt more)⟩
  | taking results =>
    right
    rw [phase] at known
    by_cases more : results.length < f.jobs.length
    · have next := List.getElem?_eq_getElem more
      by_cases finished : results.length ∈ s.finished
      · cases own : f.result f.jobs[results.length] with
        | ok result => exact ⟨_, .take phase next finished own⟩
        | error cause => exact ⟨_, .fail phase next finished own⟩
      · exact ⟨_, .finish (known.1 ▸ more) finished⟩
    · exact ⟨_, .gather phase (Nat.le_of_not_lt more)⟩
  | waiting e =>
    right
    rcases exists_running_or_idle s with ⟨k, handed, running⟩ | idle
    · exact ⟨_, .finish handed running⟩
    · exact ⟨_, .raise phase idle⟩
  | closing taken =>
    right
    rw [phase] at known
    exact ⟨_, .close phase fun _ => known.2.1⟩
  | ended outcome => exact .inl ⟨outcome, rfl⟩

/-- When the caller has taken all that it takes, every job was handed over and has finished. -/
theorem Invariant.late (inv : f.Invariant s) (late : s.phase.IsLate) :
    s.submitted = f.jobs ∧ s.finished.Perm (List.range f.jobs.length) := by
  have known : s.submitted = f.jobs ∧ s.Idle := by
    have known := inv.known
    unfold Known at known
    cases phase : s.phase with
    | closing taken =>
      rw [phase] at known
      exact ⟨known.1, known.2.1⟩
    | ended outcome =>
      rw [phase] at known
      exact ⟨known.1, known.2.1⟩
    | _ =>
      rw [phase] at late
      cases late
  refine ⟨known.1, (List.perm_ext_iff_of_nodup inv.distinct List.nodup_range).mpr fun k => ?_⟩
  rw [List.mem_range, ← known.1]
  exact ⟨inv.handed k, known.2 k⟩

/-- All runs of futures end, with one outcome, after every job was handed over once and has
finished, in whatever order the jobs finish. -/
theorem endsWith_outcome (f : Futures) : f.EndsWith f.outcome where
  finite := f.invariant_start.acc
  live _ reach := (invariant_of_reachable reach).progress
  ended s reach other phase := by
    have known := (invariant_of_reachable reach).known
    unfold Known at known
    rw [phase] at known
    exact known.2.2.symm
  late _ reach := (invariant_of_reachable reach).late

end Ending

end Futures

end Multilevel
