import Multilevel.Draws.Posterior
import Multilevel.Terms.Tree

/-!
# User-facing names

The program names its variables by number. Their draws are named after the terms of the model: a
vector of coefficients becomes one variable per coefficient, a matrix of correlations one per
pair, and the effects of the levels of a group get a dimension named after the group, labelled by
its levels. Of two variables that get one name, the later replaces the earlier; a dimension's
labels take its name away from any variable.
-/
namespace Multilevel

/-- What the names of the draws refer to. -/
structure TermNames where
  /-- The coefficients shared by all observations. -/
  population : List String
  /-- The group-level terms. -/
  groups : List Group

namespace TermNames

variable {α : Type}

/-- What becomes of a variable: new variables and labels for their dimensions. -/
structure Renamed (α : Type) where
  arrays : List (String × DrawArray α)
  labels : List (String × List String) := []

/-- What is done with a variable that is renamed. -/
abbrev Rule (α : Type) := DrawArray α → Except Fault (Renamed α)

/-- The name of the first dimension of an element. -/
def firstExtra (a : DrawArray α) : Except Fault String :=
  match Dims.extra a.dims with
  | (name, _) :: _ => .ok name
  | [] => .error .outOfBounds

/-- One variable per element of a vector. -/
def split (a : DrawArray α) (names : List String) : Except Fault (Renamed α) := do
  let dim ← firstExtra a
  let parts ← names.zipIdx.mapM fun (name, k) => return (name, ← a.pick dim k)
  return ⟨Entries.putAll [] parts, []⟩

/-- The pairs of positions of a strictly upper triangle, row by row. -/
def upperPairs (size : Nat) : List (Nat × Nat) :=
  (List.range size).flatMap fun j =>
    (List.range size).filterMap fun k => if j < k then some (j, k) else none

/-- One variable per pair of coefficients of a group. -/
def splitPairs (group : Group) (a : DrawArray α) : Except Fault (Renamed α) := do
  match Dims.extra a.dims with
  | [(row, _), (column, _)] =>
    let parts ← (upperPairs group.size).mapM fun (j, k) => do
      let name := "cor_" ++ group.factor ++ "__" ++ group.coefficients.getD j "" ++ "__" ++
        group.coefficients.getD k ""
      return (name, ← (← a.pick row j).pick column k)
    return ⟨Entries.putAll [] parts, []⟩
  | _ => .error .unconvertible

/-- The effects of a group's levels, labelled by them. -/
def labelled (group : Group) (coefficient : String) (a : DrawArray α) :
    Except Fault (Renamed α) := do
  let dim ← firstExtra a
  let renamed := a.renameDim dim group.factor
  if renamed.dims.lookup group.factor ≠ some group.levels.length then .error .mislabelled
  return ⟨[("r_" ++ group.factor ++ "__" ++ coefficient, renamed)],
    [(group.factor, group.levels)]⟩

/-- The rules for the variables of a group. -/
def groupRules (group : Group) : List (String × Rule α) :=
  let i := group.id
  let deviations : Rule α := fun a =>
    split a (group.coefficients.map fun name => "sd_" ++ group.factor ++ "__" ++ name)
  let effects : List (String × Rule α) :=
    group.coefficients.zipIdx.map fun (name, k) => (s!"r_{i}_{k + 1}", labelled group name)
  let prior : Rule α := fun a => .ok ⟨[("prior_sd_" ++ group.factor, a)], []⟩
  [(s!"sd_{i}", deviations), (s!"Cor_{i}", splitPairs group)] ++ effects ++
    [(s!"prior_sd_{i}", prior)]

/-- The rules for all variables that are renamed. -/
def rules (terms : TermNames) : List (String × Rule α) :=
  (if terms.population.isEmpty then []
    else [("b", fun a => split a (terms.population.map fun name => "b_" ++ name))]) ++
    terms.groups.flatMap groupRules

/-- What a rule makes of the variable that it is for, if the dataset has it. -/
def applyRule (d : Dataset α) (name : String) (rule : Rule α) :
    Except Fault (List (String × Renamed α)) :=
  match d.arrays.lookup name with
  | some a => do return [(name, ← rule a)]
  | none => .ok []

/-- The replacements of the variables that are renamed, in the order of the rules. -/
def replacements (terms : TermNames) (d : Dataset α) :
    Except Fault (List (String × Renamed α)) := do
  let all ← (rules terms).mapM fun entry => applyRule d entry.1 entry.2
  return all.flatten

/-- The dataset with user-facing names. -/
def rename (terms : TermNames) (d : Dataset α) : Except Fault (Dataset α) := do
  let replaced ← terms.replacements d
  let parts := d.arrays.map fun (name, a) =>
    (replaced.lookup name).getD ⟨[(name, a)], []⟩
  let labels := Entries.putAll d.labels (parts.flatMap Renamed.labels)
  let arrays := Entries.putAll [] (parts.flatMap Renamed.arrays)
  let kept : Dataset α := ⟨Entries.without arrays (labels.map Prod.fst), labels⟩
  if kept.hasConsistentSizes then .ok kept else .error .misaligned

end TermNames

/-- The draws of a run with user-facing names. -/
def Posterior.rename {α : Type} (p : Posterior α) (terms : TermNames) :
    Except Fault (Posterior α) := do
  return { p with draws := ← terms.rename p.draws }

end Multilevel
