import Multilevel.Engine.Rehearsal
import Multilevel.Proofs.Draws.Parts
import Multilevel.Proofs.Run.Dispatch
import Multilevel.Run.Dispatch

/-!
# Strategies

An engine samples by chain if what it gives for a chain does not depend on the chains that are asked
for with it. A rehearsal does: its numbers tell where they stand (`Rehearsal.samplesByChain`).

How the chains of a run are executed does not matter to its draws, if what the engine gives for a
chain depends on the chain alone: on its number, its initial values and the settings of the run. The
chains of one request, and those of requests of their own that end in any order, are then the same
run (`Engine.strategies_agree`).
-/
namespace Multilevel

/-- Whether a request names each of its chains once, and has initial values for all of them if it
has some of their own. -/
structure SampleRequest.IsComplete (r : SampleRequest) : Prop where
  /-- There are as many numbers as chains. -/
  count : r.chains.toInt = r.numbers.length
  /-- No number is given twice. -/
  distinct : r.numbers.Nodup
  /-- There are as many records of initial values as chains. -/
  inits : ∀ records, r.inits = .perChain records → records.length = r.numbers.length

namespace Engine

/-- Whether an engine samples all chains that a run may request without a failure, in datasets of
the chains asked for, and what it gives for a chain depends on the number and the initial values of
the chain alone: not on the other chains, and not on how many run at the same time. -/
def SamplesByChain (engine : Engine) (executable : Executable) (data : BuildData)
    (c : SamplingConfig) (draw : Int → ChainInits → ChainResult Float) : Prop :=
  ∀ chains numbers parallel inits, (c.request chains numbers parallel inits).IsComplete →
    ∃ p, engine.sample executable data (c.request chains numbers parallel inits) = .ok p ∧
      p.IsByChain ∧ p.chains = numbers ∧ ∀ (k : Nat) number own, numbers[k]? = some number →
        inits.ofChain k = .ok own → p.chain number = .ok (draw number own)

end Engine

/-- A variable that is made chain by chain. -/
structure ChainVariable where
  name : String
  /-- The dimensions besides that of the chains. -/
  dims : Dims
  /-- The values for a chain. -/
  values : Int → List Float

namespace ChainVariable

/-- The draws of a variable for one chain. -/
def single (v : ChainVariable) (chain : Int) : DrawArray Float := ⟨v.dims, (v.values chain).toArray⟩

/-- The variables of one chain. -/
def one (vs : List ChainVariable) (chain : Int) : Dataset Float :=
  ⟨vs.map fun v => (v.name, v.single chain), []⟩

/-- The variables of some chains. -/
def all (vs : List ChainVariable) (chains : List Int) : Dataset Float :=
  ⟨vs.map fun v => (v.name, DrawArray.stack chainDim v.dims (chains.map v.single)), []⟩

/-- Whether variables have distinct names and a value for each place. -/
structure AreProper (vs : List ChainVariable) : Prop where
  /-- No two variables have one name. -/
  distinct : (vs.map name).Nodup
  /-- Every chain has as many values as places. -/
  full : ∀ v ∈ vs, ∀ chain, (v.values chain).length = v.dims.size

variable {vs : List ChainVariable} {chains : List Int}

/-- The arrays of the chains have one shape. -/
theorem AreProper.uniform (proper : AreProper vs) {v : ChainVariable} (mem : v ∈ vs) :
    ∀ part ∈ chains.map v.single, part.dims = v.dims ∧ part.IsFull := by
  intro part there
  obtain ⟨chain, _, rfl⟩ := List.mem_map.mp there
  exact ⟨rfl, proper.full v mem chain⟩

/-- Variables made chain by chain have the chains as their first dimension. -/
theorem AreProper.isByChain (proper : AreProper vs) (chains : List Int) :
    (all vs chains).IsByChain chains.length where
  distinct := by
    rw [Dataset.names, all, List.map_map]
    exact proper.distinct
  full entry mem := by
    obtain ⟨v, there, rfl⟩ := List.mem_map.mp mem
    exact DrawArray.isFull_stack chainDim (proper.uniform there)
  leading entry mem := by
    obtain ⟨v, _, rfl⟩ := List.mem_map.mp mem
    simp [DrawArray.stack]

/-- The part of a chain is what was made for it. -/
theorem AreProper.part (proper : AreProper vs) {k : Nat} {chain : Int}
    (place : chains[k]? = some chain) : (all vs chains).part k = one vs chain := by
  obtain ⟨inside, own⟩ := List.getElem?_eq_some_iff.mp place
  have each : ∀ v ∈ vs, (DrawArray.stack chainDim v.dims (chains.map v.single)).slice k =
      v.single chain := by
    intro v mem
    rw [DrawArray.slice_stack chainDim (proper.uniform mem) (by simpa using inside),
      List.getElem_map, own]
  rw [Dataset.part, all, one, List.map_map]
  congr 1
  exact List.map_congr_left fun v mem => congrArg (Prod.mk v.name) (each v mem)

end ChainVariable

namespace Rehearsal

/-- The dimensions of a variable besides that of the chains. -/
def drawDims (name : String) (sizes : List Nat) (draws : Nat) : Dims :=
  (drawDim, draws) :: sizes.zipIdx.map fun (size, i) => (s!"{name}_dim_{i}", size)

/-- The variables that a rehearsal makes. -/
def drawn (shapes : Shapes) (seed : Int) (draws : Nat) : List ChainVariable :=
  (placed shapes).map fun (name, sizes, place) =>
    ⟨name, drawDims name sizes draws, fun chain =>
      (List.range draws).flatMap fun draw =>
        (List.range (Dims.size (drawDims name sizes draws).tail)).map fun element =>
          number seed chain draw place element⟩

/-- What a rehearsal says of each iteration. -/
def diagnostics (draws : Nat) : List ChainVariable :=
  [⟨"lp", [(drawDim, draws)], fun _ => List.replicate draws 0.0⟩]

/-- Variables that were met again keep their place. -/
theorem nodup_placed (shapes : Shapes) : ((placed shapes).map Prod.fst).Nodup := by
  have kept (met : List (String × List Nat × Nat)) (distinct : (met.map Prod.fst).Nodup) :
      ((shapes.foldl (fun met shape => Entries.put met shape.1 (shape.2, met.length)) met).map
        Prod.fst).Nodup := by
    induction shapes generalizing met with
    | nil => exact distinct
    | cons first rest ih => exact ih _ (Entries.nodup_keys_put distinct _ _)
  exact kept [] List.nodup_nil

/-- The variables of a rehearsal are proper. -/
theorem areProper_drawn (shapes : Shapes) (seed : Int) (draws : Nat) :
    ChainVariable.AreProper (drawn shapes seed draws) where
  distinct := by
    rw [drawn, List.map_map]
    exact nodup_placed shapes
  full v mem chain := by
    obtain ⟨entry, _, rfl⟩ := List.mem_map.mp mem
    simp [List.length_flatMap, drawDims, Dims.size_cons]

/-- What a rehearsal says of each iteration is proper. -/
theorem areProper_diagnostics (draws : Nat) : ChainVariable.AreProper (diagnostics draws) where
  distinct := List.nodup_singleton _
  full v mem chain := by
    obtain rfl := List.mem_singleton.mp mem
    simp [Dims.size]

/-- The draws that a rehearsal makes. -/
theorem posterior_eq {program : String} {data : BuildData} {surplus : Bool} {found : Shapes}
    (known : shapes program data surplus = .ok found) (seed : Option Whole) (chains : List Int)
    (draws : Nat) : posterior program data surplus seed chains draws =
      .ok ⟨chains, ChainVariable.all (drawn found ((seed.map Whole.toInt).getD 0) draws) chains,
        ChainVariable.all (diagnostics draws) chains⟩ := by
  have zeros : ((chains.map fun _ => List.replicate draws (0.0 : Float)).flatten).toArray =
      (List.replicate (chains.length * draws) 0.0).toArray := by
    rw [List.map_const', List.flatten_replicate_replicate]
  rw [posterior, known]
  simp only [ChainVariable.all, drawn, diagnostics, List.map_map, DrawArray.stack, List.length_map,
    List.map_singleton]
  rw [← zeros]
  simp only [drawsOf, drawDims, List.flatMap_def]
  rfl

/-- A rehearsal that is told nothing samples by chain. -/
theorem samplesByChain {r : Rehearsal} (sound : r.chainFailures = []) (ordered : r.reversed = false)
    (alike : r.surplusChains = []) {executable : Executable} {data : BuildData} {found : Shapes}
    (known : shapes executable.program data false = .ok found) (c : SamplingConfig) :
    r.engine.SamplesByChain executable data c fun chain _ =>
      ⟨chain, ChainVariable.one (drawn found ((c.seed.map Whole.toInt).getD 0)
        (keptOf c.draws c.thinning.toInt)) chain,
        ChainVariable.one (diagnostics (keptOf c.draws c.thinning.toInt)) chain⟩ := by
  intro chains numbers parallel inits complete
  have distinct : numbers.Nodup := complete.distinct
  have parameters := areProper_drawn found ((c.seed.map Whole.toInt).getD 0)
    (keptOf c.draws c.thinning.toInt)
  have statistics := areProper_diagnostics (keptOf c.draws c.thinning.toInt)
  have none : (numbers.any r.surplusChains.contains) = false := by simp [alike]
  let p : Posterior Float := ⟨numbers,
    ChainVariable.all (drawn found ((c.seed.map Whole.toInt).getD 0)
      (keptOf c.draws c.thinning.toInt)) numbers,
    ChainVariable.all (diagnostics (keptOf c.draws c.thinning.toInt)) numbers⟩
  have byChain : p.IsByChain := ⟨parameters.isByChain numbers, statistics.isByChain numbers⟩
  refine ⟨p, ?_, byChain, rfl, fun k number own place _ => ?_⟩
  · show r.sample executable data (c.request chains numbers parallel inits) = .ok p
    rw [sample, sound]
    simp only [List.find?_nil, SamplingConfig.request, none, ordered, Bool.false_eq_true, if_false]
    exact posterior_eq known _ _ _
  · rw [byChain.chain_of_getElem? distinct place]
    simp only [p, parameters.part place, statistics.part place]

end Rehearsal

namespace SamplingConfig

variable {c : SamplingConfig}

/-- The request for all chains of a run that was checked is complete. -/
theorem isComplete_request (valid : c.validate = .ok ()) (parallel : Whole) :
    (c.request c.chains c.numbers parallel c.inits).IsComplete where
  count := by
    have positive := (chains_of_validate valid).1
    show c.chains.toInt = (c.numbers.length : Int)
    rw [numbers_eq, ChainResults.numbersTo, List.length_map, List.length_range]
    omega
  distinct := by
    show c.numbers.Nodup
    rw [numbers_eq]
    exact ChainResults.nodup_numbersTo _
  inits records given := by
    have same := (chains_of_validate valid).2 records given
    show records.length = c.numbers.length
    rw [numbers_eq, ChainResults.numbersTo, List.length_map, List.length_range]
    omega

/-- The request for one chain is complete. -/
theorem isComplete_jobRequest (c : SamplingConfig) (job : ChainJob) :
    (c.jobRequest job).IsComplete where
  count := rfl
  distinct := List.nodup_singleton _
  inits records given := by
    have single : job.inits.single = .perChain records := given
    cases inits : job.inits with
    | own record =>
      rw [inits, ChainInits.single, Inits.perChain.injEq] at single
      rw [← single]
      rfl
    | _ =>
      rw [inits] at single
      cases single

end SamplingConfig

namespace Engine

namespace SamplesByChain

variable {engine : Engine} {executable : Executable} {data : BuildData} {c : SamplingConfig}
  {draw : Int → ChainInits → ChainResult Float} {jobs : List ChainJob}

/-- The request of a job gives the draws of its chain. -/
theorem jobResult (law : engine.SamplesByChain executable data c draw)
    (free : repeatedSetting? reservedSettings c.settings = none) (job : ChainJob) :
    engine.jobResult executable data c job = .ok (draw job.number job.inits) := by
  obtain ⟨p, sampled, _, _, each⟩ := law _ _ _ _ (c.isComplete_jobRequest job)
  have own := each 0 job.number job.inits rfl job.inits.ofChain_single
  have requested : engine.sample executable data (c.jobRequest job) = .ok p := sampled
  rw [Engine.jobResult, free]
  simp only [requested]
  exact mapError_eq_ok.mpr own

/-- The request for all chains gives what merging the results of the jobs gives. -/
theorem batch (law : engine.SamplesByChain executable data c draw) (valid : c.validate = .ok ())
    (made : c.jobs = .ok jobs) (parallel : Whole) :
    ∃ p, engine.sample executable data (c.request c.chains c.numbers parallel c.inits) = .ok p ∧
      p.chains = c.numbers ∧
      (∀ job ∈ jobs, p.chain job.number = .ok (draw job.number job.inits)) ∧
      ChainResults.merge (jobs.map fun job => draw job.number job.inits) jobs.length = .ok p := by
  obtain ⟨p, sampled, byChain, chains, each⟩ := law _ _ _ _ (c.isComplete_request valid parallel)
  have own : ∀ job ∈ jobs, p.chain job.number = .ok (draw job.number job.inits) := by
    intro job mem
    obtain ⟨k, place, inits⟩ := SamplingConfig.place_of_mem_jobs made mem
    exact each k job.number job.inits place inits
  have parts : p.parts = jobs.map fun job => draw job.number job.inits := by
    have taken := byChain.forall₂_chain (by
      rw [chains, SamplingConfig.numbers_eq]
      exact ChainResults.nodup_numbersTo _)
    rw [chains, ← SamplingConfig.numbers_jobs made, ← mapM_eq_ok, List.mapM_map] at taken
    have given : jobs.mapM (fun job => p.chain job.number) =
        .ok (jobs.map fun job => draw job.number job.inits) := by
      rw [mapM_eq_ok, List.forall₂_map_right_iff, List.forall₂_same]
      exact own
    exact Except.ok.inj (taken.symm.trans given)
  refine ⟨p, sampled, chains, own, ?_⟩
  rw [← parts, SamplingConfig.length_jobs valid made]
  exact ChainResults.merge_parts byChain (SamplingConfig.chains_of_validate valid).1
    (by rw [chains, SamplingConfig.numbers_eq])

/-- The results of the jobs are those of their chains. -/
theorem collected (law : engine.SamplesByChain executable data c draw)
    (free : repeatedSetting? reservedSettings c.settings = none) (owned : Bool) :
    (engine.futures executable data c jobs owned).collected =
      .ok (jobs.map fun job => draw job.number job.inits) := by
  rw [Futures.collected_eq_ok, List.forall₂_map_right_iff]
  exact List.forall₂_same.mpr fun job _ => law.jobResult free job

end SamplesByChain

variable {engine : Engine} {executable : Executable} {data : BuildData} {c : SamplingConfig}
  {jobs : List ChainJob}

/-- A further setting with the name of one that the run makes fails every chain. -/
theorem exists_error_of_repeated (valid : c.validate = .ok ()) (made : c.jobs = .ok jobs)
    {name : String} (repeated : repeatedSetting? reservedSettings c.settings = some name)
    (owned : Bool) :
    ∃ e, (engine.futures executable data c jobs owned).outcome = .error e := by
  have failed : ∀ job, engine.jobResult executable data c job = .error (.repeated name) := by
    intro job
    rw [Engine.jobResult, repeated]
    rfl
  have length := SamplingConfig.length_jobs valid made
  have positive := (SamplingConfig.chains_of_validate valid).1
  cases jobs with
  | nil =>
    rw [List.length_nil] at length
    omega
  | cons job rest =>
    rw [Futures.outcome, Futures.collected_eq_error [] .nil rfl (failed job)]
    exact ⟨_, rfl⟩

/-- If the draws of a chain depend on the chain alone, all strategies end with the same run: one of
the chains from one on, each with its own draws, in whatever order the jobs of a run as futures
finish. With a further setting that has the name of one that the run makes, none gives draws. -/
theorem strategies_agree {draw : Int → ChainInits → ChainResult Float}
    (valid : c.validate = .ok ()) (law : engine.SamplesByChain executable data c draw) :
    ∃ jobs, c.jobs = .ok jobs ∧
      (repeatedSetting? reservedSettings c.settings = none → ∃ p,
        p.chains = ChainResults.numbersTo c.chains.toInt ∧
        (∀ job ∈ jobs, p.chain job.number = .ok (draw job.number job.inits)) ∧
        (∀ strategy w, ((engine.dispatch executable data
          (.sampling { c with strategy })).run w).1 = .ok p) ∧
        ∀ owned, (engine.futures executable data c jobs owned).EndsWith (.ok p)) ∧
      (repeatedSetting? reservedSettings c.settings ≠ none → ∀ strategy w, ∃ e,
        ((engine.dispatch executable data (.sampling { c with strategy })).run w).1 = .error e) := by
  obtain ⟨jobs, made⟩ := SamplingConfig.exists_jobs valid
  refine ⟨jobs, made, fun free => ?_, fun repeated strategy w => ?_⟩
  · obtain ⟨p, _, chains, own, merged⟩ := law.batch valid made 1
    have outcome (owned : Bool) : (engine.futures executable data c jobs owned).outcome = .ok p := by
      rw [Futures.outcome, law.collected free]
      exact merged
    refine ⟨p, c.numbers_eq ▸ chains, own, fun strategy w => ?_, fun owned => ?_⟩
    · by_cases futures : strategy = .futures
      · exact (run_dispatch_futures (c := { c with strategy }) valid futures made true w).trans
          (outcome true)
      · rw [run_dispatch_batch (c := { c with strategy }) valid futures w]
        have batch := law.batch valid made (if strategy = .forked then c.cores else 1)
        obtain ⟨q, sampled, numbers, _, same⟩ := batch
        obtain rfl := Except.ok.inj (same.symm.trans merged)
        have requested : engine.sample executable data
            (SamplingConfig.batchRequest { c with strategy }) = .ok q := sampled
        simp only [free, requested]
        exact if_pos numbers
    · exact outcome owned ▸ Futures.endsWith_outcome _
  · obtain ⟨name, found⟩ := Option.ne_none_iff_exists'.mp repeated
    by_cases futures : strategy = .futures
    · rw [run_dispatch_futures (c := { c with strategy }) valid futures made true w]
      exact exists_error_of_repeated (c := { c with strategy }) valid made found true
    · rw [run_dispatch_batch (c := { c with strategy }) valid futures w]
      simp only [found, Option.isSome_some, if_true]
      exact ⟨_, rfl⟩

/-- Two cores and three chains of a rehearsal, each with initial values of its own. -/
def sampleConfig : SamplingConfig where
  chains := 3
  cores := 2
  inits := .perChain [[("b", .int 1)], [("b", .int 2)], []]

/-- The three chains are the same run under every strategy. -/
theorem sample_strategies : sampleConfig.validate = .ok () ∧ ∃ jobs p,
    sampleConfig.jobs = .ok jobs ∧ p.chains = [1, 2, 3] ∧
    (∀ strategy w, ((Rehearsal.engine {}).dispatch ⟨"", [], [], .null⟩ [("K", .ofNat 2)]
      (.sampling { sampleConfig with strategy }) |>.run w).1 = .ok p) ∧
    ∀ owned, ((Rehearsal.engine {}).futures ⟨"", [], [], .null⟩ [("K", .ofNat 2)] sampleConfig jobs
      owned).EndsWith (.ok p) := by
  have known : ∃ found, Rehearsal.shapes (⟨"", [], [], .null⟩ : Executable).program
      [("K", .ofNat 2)] false = .ok found := ⟨_, rfl⟩
  obtain ⟨found, known⟩ := known
  have law := Rehearsal.samplesByChain (r := {}) rfl rfl rfl known sampleConfig
  have valid : sampleConfig.validate = .ok () := by cbv
  obtain ⟨jobs, made, agree, _⟩ := strategies_agree valid law
  obtain ⟨p, chains, _, same, ends⟩ := agree rfl
  exact ⟨valid, jobs, p, made, chains, same, ends⟩

end Engine

end Multilevel
