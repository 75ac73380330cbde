import Multilevel.Engine.Basic
import Multilevel.Text.Blank
import Multilevel.Text.Search

/-!
# Rehearsals

A rehearsal is an engine that computes nothing: it takes the names and the shapes of the
variables from the program and its data, and fills them with numbers that tell where they stand.
The number of a place grows with the number of the chain by a hundred, with the place of the
variable by one and with the element by a quarter, so that no two places of a run are mixed up
unnoticed. A rehearsal can be told to fail.
-/
namespace Multilevel

/-- What a rehearsal is told to do. -/
structure Rehearsal where
  /-- The records written when an executable is made. -/
  log : List LogRecord := [⟨.info, "compiling"⟩]
  /-- The failure of making executables. -/
  compileFailure : Option EngineError := none
  /-- The failures of chains. -/
  chainFailures : List (Int × EngineError) := []
  /-- The failure of approximations. -/
  approximationFailure : Option EngineError := none
  /-- Whether the chains are returned in reverse order. -/
  reversed : Bool := false
  /-- The chains whose draws have a variable that others lack. -/
  surplusChains : List Int := []
  deriving Repr

namespace Rehearsal

/-- The failure to find a data variable. -/
def unknownVariable (name : String) : EngineError := ⟨⟨"KeyError", false, true⟩, name⟩

/-- The failure to use a value of another kind as a count. -/
def noCount (name : String) : EngineError := ⟨⟨"TypeError", false, false⟩, name⟩

/-- The count that a data variable holds. -/
def count (data : BuildData) (name : String) : Except EngineError Nat :=
  match data.lookup name with
  | none => .error (unknownVariable name)
  | some datum =>
    match Whole.ofValue? datum.value with
    | some n => .ok n.toInt.toNat
    | none => .error (noCount name)

/-- Whether a character may stand in a name. -/
def isNameChar (c : Char) : Bool := c.isAlphanum || c == '_' || 127 < c.toNat

/-- The name of the variable that a line declares as a real number with a lower bound. -/
def boundedName? (line : List Char) : Option String := do
  let rest ← Text.after? "real<lower=".toList (Text.stripStart line)
  if (rest.takeWhile (· ≠ '>')).isEmpty then none
  else
    let rest ← Text.after? "> ".toList (rest.dropWhile (· ≠ '>'))
    let name := rest.takeWhile isNameChar
    if name.isEmpty then none
    else (Text.after? [';'] (rest.dropWhile isNameChar)).map fun _ => String.ofList name

/-- The name of the draw from a prior that a line makes. -/
def priorName? (line : List Char) : Option String := do
  let rest ← Text.after? "real ".toList (Text.stripStart line)
  let _ ← Text.after? "prior_".toList rest
  (Text.after? " =".toList (rest.dropWhile isNameChar)).map fun _ =>
    String.ofList (rest.takeWhile isNameChar)

/-- The names that the lines of a program declare. -/
def namesOf (name? : List Char → Option String) (program : String) : List String :=
  (program.splitOn "\n").filterMap fun line => name? line.toList

/-- The numbers of the group-level terms that the data tell of. -/
def groupsFrom (data : BuildData) (i : Nat) : Nat → List Nat
  | 0 => []
  | fuel + 1 =>
    if (data.lookup s!"N_{i}").isSome then i :: groupsFrom data (i + 1) fuel else []

/-- The numbers of the group-level terms. -/
def groups (data : BuildData) : List Nat := groupsFrom data 1 data.length

/-- The variables of a program with their sizes. -/
abbrev Shapes := List (String × List Nat)

/-- The variables of a group-level term. -/
def groupShapes (program : String) (data : BuildData) (i : Nat) : Except EngineError Shapes := do
  let effects ← count data s!"M_{i}"
  let levels ← count data s!"N_{i}"
  let factor := if Text.occurs s!"L_{i};" program then [(s!"L_{i}", [effects, effects])] else []
  return [(s!"sd_{i}", [effects]), (s!"z_{i}", [effects, levels])] ++ factor ++
    [(s!"r_{i}", [levels, effects])] ++
    (List.range effects).map fun k => (s!"r_{i}_{k + 1}", [levels])

/-- The correlations of a group-level term. -/
def correlationShapes (program : String) (data : BuildData) (i : Nat) :
    Except EngineError Shapes := do
  if Text.occurs s!"Cor_{i}" program then
    let effects ← count data s!"M_{i}"
    return [(s!"Cor_{i}", [effects, effects])]
  else return []

/-- The variables of a program, a name that is met again included. -/
def shapes (program : String) (data : BuildData) (surplus : Bool) : Except EngineError Shapes := do
  let coefficients ← count data "K"
  let residuals ← if (data.lookup "Kar").isSome then do pure [("ar", [← count data "Kar"])]
    else pure []
  let terms ← (groups data).mapM (groupShapes program data)
  let correlations ← (groups data).mapM (correlationShapes program data)
  let scalar (name : String) : Shapes := if Text.occurs name program then [(name, [])] else []
  let scalars (names : List String) : Shapes := names.map fun name => (name, [])
  return (if coefficients = 0 then [] else [("b", [coefficients])]) ++ scalar "temp_Intercept" ++
    scalars (namesOf boundedName? program) ++ residuals ++ terms.flatten ++
    scalar "b_Intercept" ++ correlations.flatten ++ scalars (namesOf priorName? program) ++
    (if surplus then [("extra", [])] else [])

/-- Variables with their sizes and the number of variables met before. -/
def placed (all : Shapes) : List (String × List Nat × Nat) :=
  all.foldl (fun met (name, sizes) => Entries.put met name (sizes, met.length)) []

/-- The number that stands for a place. -/
def number (seed chain : Int) (draw place element : Nat) : Float :=
  Number.ofInt (seed.fmod 8 + 100 * chain + (7 * draw % 5 : Nat) + place) +
    Number.ofInt element / 4.0

/-- The draws of a variable. -/
def drawsOf (name : String) (sizes : List Nat) (place : Nat) (seed : Int) (chains : List Int)
    (draws : Nat) : DrawArray Float :=
  let extra := sizes.zipIdx.map fun (size, i) => (s!"{name}_dim_{i}", size)
  let elements := Dims.size extra
  ⟨(chainDim, chains.length) :: (drawDim, draws) :: extra,
    (chains.flatMap fun chain => (List.range draws).flatMap fun draw =>
      (List.range elements).map fun element => number seed chain draw place element).toArray⟩

/-- The draws of a run. -/
def posterior (program : String) (data : BuildData) (surplus : Bool) (seed : Option Whole)
    (chains : List Int) (draws : Nat) : Except EngineError (Posterior Float) := do
  let all ← shapes program data surplus
  let seed := (seed.map Whole.toInt).getD 0
  let arrays := (placed all).map fun (name, sizes, place) =>
    (name, drawsOf name sizes place seed chains draws)
  let zeros := (List.replicate (chains.length * draws) 0.0).toArray
  return ⟨chains, ⟨arrays, []⟩,
    ⟨[("lp", ⟨[(chainDim, chains.length), (drawDim, draws)], zeros⟩)], []⟩⟩

/-- The number of iterations kept of some, every so many of them. -/
def keptOf (iterations thinning : Int) : Nat := ((iterations + thinning - 1).fdiv thinning).toNat

/-- Makes an executable. -/
def compile (r : Rehearsal) (request : CompileRequest) (program : String)
    (found : Option Executable) : Compilation :=
  ⟨r.log, match r.compileFailure with
    | some e => .error e
    | none =>
      .ok (found.getD ⟨program, request.translator, request.compiler, request.header⟩)⟩

/-- Samples. -/
def sample (r : Rehearsal) (executable : Executable) (data : BuildData) (request : SampleRequest) :
    Except EngineError (Posterior Float) :=
  match r.chainFailures.find? fun (chain, _) => request.numbers.contains chain with
  | some (_, e) => .error e
  | none =>
    let chains := if r.reversed then request.numbers.reverse else request.numbers
    posterior executable.program data (request.numbers.any r.surplusChains.contains) request.seed
      chains (keptOf request.iterations request.thinning.toInt)

/-- Approximates. -/
def approximate (r : Rehearsal) (executable : Executable) (data : BuildData)
    (request : VariationalRequest) : Except EngineError (Posterior Float) :=
  match r.approximationFailure, request.samples with
  | some e, _ => .error e
  | none, .real _ => .error (noCount "output_samples")
  | none, .whole samples =>
    posterior executable.program data (r.surplusChains.contains 1) request.seed [1]
      samples.toInt.toNat

/-- The engine of a rehearsal. -/
def engine (r : Rehearsal) : Engine := ⟨r.compile, r.sample, r.approximate⟩

end Rehearsal

end Multilevel
