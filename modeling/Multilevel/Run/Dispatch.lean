import Multilevel.Run.Arguments
import Multilevel.Store.Workspace

/-!
# Dispatching runs

A sampling run is one request for all chains, or one request for each chain as futures. With
futures all requests are made before any result is looked at; the results are then looked at in
the order of the chains, so the first chain that failed is the one reported, whichever chain ends
first. An approximation is always one request.
-/
namespace Multilevel

namespace SamplingConfig

/-- The request for some chains of a run. -/
def request (c : SamplingConfig) (chains : Whole) (numbers : List Int) (parallel : Whole)
    (inits : Inits) : SampleRequest where
  chains := chains
  numbers := numbers
  parallel := parallel
  seed := c.seed
  inits := inits
  warmup := c.warmup
  iterations := c.draws
  thinning := c.thinning
  control := c.control
  silent := c.silent
  settings := c.settings

/-- The numbers of the chains of a run. -/
def numbers (c : SamplingConfig) : List Int := (InitChoice.chainNumbers c.chains).map Int.ofNat

/-- The request for all chains of a run. -/
def batchRequest (c : SamplingConfig) : SampleRequest :=
  c.request c.chains c.numbers (if c.strategy = .forked then c.cores else 1) c.inits

/-- The request for one chain of a run. -/
def jobRequest (c : SamplingConfig) (job : ChainJob) : SampleRequest :=
  c.request 1 [job.number] 1 job.inits.single

end SamplingConfig

/-- The request for an approximation. -/
def VariationalConfig.request (c : VariationalConfig) (inits : Inits) : VariationalRequest where
  algorithm := c.algorithm
  iterations := c.iterations
  samples := c.samples
  seed := c.seed
  inits := inits
  silent := c.silent
  settings := c.settings

namespace Engine

/-- How a failure of the engine reaches the caller of a part of a run. -/
def failureOf (part : RunPart) (e : EngineError) : Failure :=
  if e.kind.wrapped then .chain ⟨part, .engine e⟩ else .engine e

/-- Runs all chains by one request. -/
def runBatch (engine : Engine) (executable : Executable) (data : BuildData) (c : SamplingConfig) :
    Work (Posterior Float) := do
  if (repeatedSetting? reservedSettings c.settings).isSome then refuse Fault.unsupported
  let request := c.batchRequest
  Work.note (.sample request)
  let draws ← Work.check ((engine.sample executable data request).mapError (failureOf .batch))
  if draws.chains ≠ c.numbers then refuse (MergeError.unexpected draws.chains c.numbers)
  return draws

/-- The result of one chain. -/
def jobResult (engine : Engine) (executable : Executable) (data : BuildData) (c : SamplingConfig)
    (job : ChainJob) : Except ChainCause (ChainResult Float) := do
  if let some name := repeatedSetting? reservedSettings c.settings then throw (.repeated name)
  let draws ← (engine.sample executable data (c.jobRequest job)).mapError .engine
  (draws.chain job.number).mapError fun _ => .absent job.number

/-- The results of jobs in their order; the first one that failed is reported. -/
def collect (results : List (ChainJob × Except ChainCause (ChainResult Float))) :
    Except ChainError (List (ChainResult Float)) :=
  results.mapM fun (job, result) => result.mapError fun cause => ⟨.chain job.number, cause⟩

/-- Runs every chain by a request of its own. -/
def runFutures (engine : Engine) (executable : Executable) (data : BuildData)
    (c : SamplingConfig) : Work (Posterior Float) := do
  if 1 < c.cores.toInt then Work.warn .coresIgnored
  let jobs ← Work.check c.jobs
  if (repeatedSetting? reservedSettings c.settings).isNone then
    jobs.forM fun job => Work.note (.sample (c.jobRequest job))
  let results ← Work.check (collect (jobs.map fun job =>
    (job, engine.jobResult executable data c job)))
  Work.check (ChainResults.merge results jobs.length)

/-- Looks at the results of all jobs and merges them. -/
def gather (engine : Engine) (executable : Executable) (data : BuildData) (c : SamplingConfig)
    (jobs : List ChainJob) : Work (Posterior Float) := do
  let results ← Work.check (collect (jobs.map fun job =>
    (job, engine.jobResult executable data c job)))
  Work.check (ChainResults.merge results jobs.length)

/-- A run as futures is a warning that it may issue, the requests that it may make, and what becomes
of their results, one after the other. -/
theorem runFutures_eq (engine : Engine) (executable : Executable) (data : BuildData)
    (c : SamplingConfig) : engine.runFutures executable data c =
      ((if 1 < c.cores.toInt then Work.warn .coresIgnored else pure ()) >>= fun _ =>
        Work.check c.jobs >>= fun jobs =>
        (if (repeatedSetting? reservedSettings c.settings).isNone then
          jobs.forM fun job => Work.note (.sample (c.jobRequest job))
        else pure ()) >>= fun _ => engine.gather executable data c jobs) := by
  have optional (p : Prop) [Decidable p] (step : Work Unit) (next : Unit → Work (Posterior Float)) :
      (if p then step else pure ()) >>= next = if p then step >>= next else next () := by
    split
    · rfl
    · exact pure_bind () next
  simp only [optional]
  rfl

/-- Approximates. -/
def runVariational (engine : Engine) (executable : Executable) (data : BuildData)
    (c : VariationalConfig) : Work (Posterior Float) := do
  let inits ← Work.check (c.inits.ofChain 0)
  if (repeatedSetting? reservedApproximation c.settings).isSome then refuse Fault.unsupported
  let request := c.request inits.single
  Work.note (.approximate request)
  Work.check ((engine.approximate executable data request).mapError (failureOf .variational))

/-- Runs a model and gives the draws of all chains in the order of their numbers. -/
def dispatch (engine : Engine) (executable : Executable) (data : BuildData) (config : RunConfig) :
    Work (Posterior Float) := do
  Work.check config.validate
  match config with
  | .variational c => engine.runVariational executable data c
  | .sampling c =>
    if c.strategy = .futures then engine.runFutures executable data c
    else engine.runBatch executable data c

end Engine

end Multilevel
