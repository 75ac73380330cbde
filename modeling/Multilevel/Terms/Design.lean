import Multilevel.Data.Factor
import Multilevel.Formula.Basic

/-!
# Design matrices

A term contributes one column of numbers per combination of what its variables contribute: a
number contributes itself, a factor the indicators of its levels. A factor leaves its first level
out where the other terms of the model already account for it. Columns are computed over any
numbers with a one, a zero and a product.
-/
namespace Multilevel

/-- What a variable contributes to a design: its numbers, or the levels of its observations. -/
inductive Predictor (α : Type) (rows : Nat) where
  | numeric (cells : Vector α rows)
  | factor (levels : List String) (codes : Vector (Option (Fin levels.length)) rows)

/-- A labelled column of a design matrix. -/
structure DesignColumn (α : Type) (rows : Nat) where
  /-- The name of the coefficient. -/
  label : String
  /-- One number per observation. -/
  cells : Vector α rows

/-- How the variables of a model are found. -/
abbrev Predictors (α : Type) (rows : Nat) := String → Except Fault (Predictor α rows)

/-- What the column of a table contributes to a design; texts have to spell numbers. -/
def Column.predictor {rows : Nat} (column : Column rows) : Except Fault (Predictor Float rows) :=
  match column with
  | .factor levels codes => .ok (.factor levels codes)
  | _ => return .numeric (← column.numbers)

/-- The variables of a table. -/
def Frame.predictors (frame : Frame) : Predictors Float frame.rows := fun name => do
  (← frame.column name).predictor

namespace Predictor

variable {α : Type} {rows : Nat}

/-- Whether a variable is a factor. -/
def isFactor : Predictor α rows → Bool
  | factor .. => true
  | numeric _ => false

/-- The indicators of a factor's level. -/
def indicators [OfNat α 0] [OfNat α 1] {levels : List String}
    (codes : Vector (Option (Fin levels.length)) rows) (level : Fin levels.length) :
    Vector α rows :=
  codes.map fun code => if code = some level then 1 else 0

/-- The columns that a variable contributes on its own. A factor that is not coded in full leaves
its first level out. -/
def columns [OfNat α 0] [OfNat α 1] (predictor : Predictor α rows) (name : String) (full : Bool) :
    List (DesignColumn α rows) :=
  match predictor with
  | numeric cells => [⟨name, cells⟩]
  | factor levels codes =>
    let all := (List.finRange levels.length).map fun level =>
      ⟨name ++ levels.get level, indicators codes level⟩
    if full then all else all.tail

end Predictor

namespace DesignColumn

variable {α : Type} {rows : Nat}

/-- The product of two columns, under both labels. -/
def times [Mul α] (a b : DesignColumn α rows) : DesignColumn α rows :=
  ⟨if a.label.isEmpty then b.label else a.label ++ ":" ++ b.label,
    a.cells.zipWith (· * ·) b.cells⟩

/-- The constant column with a label. -/
def ones [OfNat α 1] (label : String) : DesignColumn α rows := ⟨label, Vector.replicate rows 1⟩

end DesignColumn

namespace Design

variable {α : Type} {rows : Nat} [Mul α] [OfNat α 0] [OfNat α 1]

/-- The columns of a term. Each variable comes with the choice whether it is coded in full. -/
def termColumns (find : Predictors α rows) (names : List (String × Bool)) :
    Except Fault (List (DesignColumn α rows)) :=
  names.foldlM (fun columns (name, full) =>
      if columns.isEmpty then .ok []
      else do
        let predictor ← find name
        return columns.flatMap fun column =>
          (predictor.columns name full).map column.times)
    [DesignColumn.ones ""]

/-- Whether two lists of names hold the same names. -/
def sameNames (a b : List String) : Bool := a.all b.contains && b.all a.contains

/-- Whether a variable of an interaction is coded in full: the interaction without it is no term of
the model. -/
def isFull (terms : List Term) (term : Term) (name : String) : Bool :=
  !terms.any fun other => sameNames other.names (term.names.filter (· ≠ name))

/-- How the variables of a term are coded, and whether a constant is accounted for after the term.
While none is, a factor that is a term on its own is coded in full. -/
def coding (find : Predictors α rows) (all : List Term) (constant : Bool) (term : Term) :
    Except Fault (List (String × Bool) × Bool) :=
  match term.names with
  | [name] =>
    if constant then .ok ([(name, false)], true)
    else do
      let predictor ← find name
      return ([(name, predictor.isFactor)], predictor.isFactor)
  | names => .ok (names.map fun name => (name, isFull all term name), constant)

/-- The columns of terms in order. While no constant is accounted for, the first factor that is a
term on its own is coded in full. -/
def columnsOf (find : Predictors α rows) (all : List Term) :
    Bool → List Term → Except Fault (List (DesignColumn α rows))
  | _, [] => .ok []
  | constant, term :: rest => do
    let (choices, constant) ← coding find all constant term
    let columns ← termColumns find choices
    return columns ++ (← columnsOf find all constant rest)

/-- The design matrix of terms, without the constant column. No two columns may have one label. -/
def matrix (find : Predictors α rows) (intercept : Bool) (terms : List Term) :
    Except Failure (List (DesignColumn α rows)) := do
  let columns ← columnsOf find terms intercept terms
  let labels := columns.map DesignColumn.label
  if labels.eraseDups.length ≠ labels.length then refuse (FormulaError.duplicatedColumns labels)
  return columns

/-- The design matrix of a group-level term, with the constant column in front if the intercept
varies. -/
def groupMatrix (find : Predictors α rows) (term : GroupTerm) :
    Except Failure (List (DesignColumn α rows)) := do
  let columns ← matrix find term.intercept term.terms
  return if term.intercept then .ones "Intercept" :: columns else columns

end Design

/-- The place of each observation's level in a factor, counted from one; zero for a missing one. -/
def Frame.groupIndex (frame : Frame) (name : String) : Except Fault (List Nat) := do
  match ← frame.column name with
  | .factor _ codes => return codes.toList.map fun code =>
      match code with
      | some level => level.val + 1
      | none => 0
  | _ => throw .unknownAttribute

end Multilevel
