import Multilevel.Run.Arguments
import Multilevel.Value.Expect

/-!
# Runs described by loose values

The arguments of a run may arrive as loose values under their names. Arguments of a caller are
checked for their kinds at once. The parts of a configuration are not: they are checked in their
order, and a part of a wrong kind is refused where it is compared or counted.
-/
namespace Multilevel

/-- Initial values in any of their forms. -/
def InitChoice.expect (value : Value) : Except Fault InitChoice :=
  match InitChoice.ofValue? value with
  | some choice => .ok choice
  | none => .error .mistyped

namespace RunArguments

/-- The names of the arguments. -/
def names : List String :=
  ["algorithm", "inits", "chains", "iter", "warmup", "thin", "cores", "control", "future",
    "silent", "seed"]

/-- The arguments that loose values describe. -/
def ofGiven (given settings : Settings) : Except Fault RunArguments := do
  let whole (name : String) := Expect.field given name none (Expect.optional Expect.whole)
  return {
    algorithm := ← Expect.field given "algorithm" "sampling" Expect.text
    inits := ← Expect.field given "inits" (.named "random") InitChoice.expect
    chains := ← whole "chains"
    iterations := ← Expect.field given "iter" 2000 Expect.whole
    warmup := ← whole "warmup"
    thinning := ← whole "thin"
    cores := ← whole "cores"
    control := ← Expect.field given "control" none (Expect.optional Expect.fields)
    future := ← Expect.field given "future" none (Expect.optional Expect.truth)
    silent := ← Expect.field given "silent" true Expect.truth
    seed := ← whole "seed"
    settings }

end RunArguments

/-- The parts of a configuration as loose values. They are compared as they are, and one of a wrong
kind is only noticed where it is used. -/
structure LooseRun where
  parts : Settings

namespace LooseRun

/-- A part, or a standard value in its place. -/
def part (r : LooseRun) (name : String) (standard : Value) : Value :=
  (r.parts.lookup name).getD standard

/-- The number that a part is, where it is compared with another one. -/
def number (r : LooseRun) (name : String) (standard : Int) : Except Fault Quantity :=
  match Quantity.ofValue? (r.part name (.int standard)) with
  | some q => .ok q
  | none => .error .unsupported

/-- The names of the sampler's settings that a value gives: the keys of a record, the items of a
list or the characters of a text, each once. -/
def controlNames : Value → Except Fault (List String)
  | .record fields => .ok (fields.map Prod.fst)
  | .list items => do
    let names ← items.mapM fun item => match item with
      | .text s => (.ok s : Except Fault String)
      | _ => .error .unsupported
    return names.eraseDups
  | .text s => .ok (s.toList.map String.singleton).eraseDups
  | _ => .error .unsupported

/-- The names of a sampling run's parts. -/
def samplingNames : List String :=
  ["chains", "iter", "warmup", "thin", "cores", "control", "seed", "inits", "silent", "strategy",
    "engine_kwargs"]

/-- The names of a variational run's parts. -/
def variationalNames : List String :=
  ["algorithm", "iter", "output_samples", "seed", "inits", "silent", "engine_kwargs"]

/-- Checks a sampling run as `SamplingConfig.validate` does. -/
def checkSampling (r : LooseRun) : Except Failure Unit := do
  match r.parts.lookup "strategy" with
  | none => pure ()
  | some (.text name) => if (Strategy.ofName? name).isNone then refuse Fault.unconvertible
  | some _ => refuse Fault.unconvertible
  Expect.knownNames samplingNames r.parts
  let chains ← r.number "chains" 4
  SamplingConfig.requireOne "chains" chains
  let warmup ← r.number "warmup" 1000
  SamplingConfig.requireWarmup warmup
  SamplingConfig.requireDraws (← r.number "iter" 2000) warmup
  SamplingConfig.requireOne "thin" (← r.number "thin" 1)
  SamplingConfig.requireOne "cores" (← r.number "cores" 1)
  SamplingConfig.requireControl (← controlNames (r.part "control" (.record [])))
  match r.part "inits" .null with
  | .list items =>
    if !chains.isExactly items.length then refuse (InitError.count items.length chains.text)
  | _ => pure ()

/-- The numbers of the chains, which have to be counted. -/
def chainNumbers (r : LooseRun) : Except Fault (List Nat) :=
  match r.part "chains" (.int 4) with
  | .int n => .ok (InitChoice.chainNumbers (.int n))
  | .bool b => .ok (InitChoice.chainNumbers (.truth b))
  | _ => .error .unsupported

/-- The initial values of the chain at a position. They have to be resolved already, which shows in
their kind and in the kind of the first one of a list. -/
def initsAt (r : LooseRun) (position : Nat) : Except Fault Value :=
  match r.part "inits" .null with
  | .list (.record first :: rest) =>
    match (Value.record first :: rest)[position]? with
    | some value => .ok value
    | none => .error .outOfBounds
  | .list [] => .error .outOfBounds
  | .null => .ok .null
  | .bool b => .ok (.bool b)
  | .int n => .ok (.int n)
  | .float x => .ok (.float x)
  | _ => .error .mistyped

/-- The chains of a checked sampling run: their numbers and initial values. -/
def jobs (r : LooseRun) : Except Fault (List (Nat × Value)) := do
  (← r.chainNumbers).mapM fun number => return (number, ← r.initsAt (number - 1))

/-- The iterations of a chain after its warmup, which have to be an integer. -/
def draws (r : LooseRun) : Except Fault Int := do
  match ← r.number "iter" 2000, ← r.number "warmup" 1000 with
  | .whole iterations, .whole warmup => return iterations.toInt - warmup.toInt
  | _, _ => throw .mistyped

/-- The parts of a variational run that decide about its draws, checked as
`VariationalConfig.validate` does. -/
def checkedVariational (r : LooseRun) : Except Failure Settings := do
  Expect.knownNames variationalNames r.parts
  let algorithm := r.part "algorithm" (.text "meanfield")
  if !variationalAlgorithms.contains algorithm.level then
    refuse (ConfigurationError.variational algorithm.level)
  let iterations ← r.number "iter" 2000
  SamplingConfig.requireOne "iter" iterations
  let samples ← r.number "output_samples" 1000
  SamplingConfig.requireOne "output_samples" samples
  return [("algorithm", algorithm), ("iter", iterations.value), ("output_samples", samples.value)]

end LooseRun

end Multilevel
