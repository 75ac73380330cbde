import Multilevel.Data.Frame
import Multilevel.Data.Inferred
import Multilevel.Value.Arrays

/-!
# Factors

A column becomes a factor by taking the texts of its cells as levels. A factor keeps the order of
its levels and loses those that no cell has; the levels of any other column are sorted by their
characters.
-/
namespace Multilevel.Column

variable {rows : Nat}

/-- The distinct levels that occur in a column, sorted by their characters. -/
def sortedLevels (column : Column rows) : List String :=
  ((List.finRange rows).filterMap column.level?).eraseDups.mergeSort fun a b => a ≤ b

/-- The levels of a factor that occur in it, in the order of the factor. -/
def presentLevels (column : Column rows) (levels : List String) : List String :=
  let present := (List.finRange rows).filterMap column.level?
  levels.filter present.contains

/-- The factor with the given levels whose cells have the levels of a column. -/
def withLevels (column : Column rows) (levels : List String) : Column rows :=
  factor levels (Vector.ofFn fun row => (column.level? row).bind levels.finIdxOf?)

/-- A column as a factor. A column that is no factor yet may not miss any cell, and no level of a
factor may be listed twice. -/
def asFactor (column : Column rows) : Except Fault (Column rows) :=
  match column with
  | factor levels _ =>
    let kept := column.presentLevels levels
    if kept.eraseDups.length = kept.length then .ok (column.withLevels kept)
    else .error .unconvertible
  | _ =>
    if (List.finRange rows).any column.isMissing then
      if column.sortedLevels.isEmpty then .error .unconvertible else .error .unsupported
    else .ok (column.withLevels column.sortedLevels)

/-- Whether a column holds truth values. -/
def isTruths : Column rows → Bool
  | bool _ => true
  | _ => false

/-- Whether a column holds floating-point numbers. -/
def isReal : Column rows → Bool
  | float _ => true
  | _ => false

/-- How the values of two columns are compared: numbers as floating-point numbers if one of the
columns holds such, and truth values with numbers not at all. -/
def meeting? {m n : Nat} (a : Column m) (b : Column n) : Option Value.LeafKind :=
  if (a.isTruths && b.isNumeric) || (a.isNumeric && b.isTruths) then none
  else if a.isNumeric && b.isNumeric && (a.isReal || b.isReal) then some .real
  else some .loose

/-- The factor whose levels are the given categories, in their order, and whose cells are looked up
among them. Categories are stored as a column stores them; they must be there and distinct. -/
def categorical (categories cells : List Value) : Except Fault (Column cells.length) := do
  let known ← ofValues (⟨categories.toArray, rfl⟩ : Vector Value categories.length)
  let categories := categories.map (Value.stored (if known.isReal then .real else .loose))
  if categories.any missingValue then throw .unconvertible
  if categories.any Value.isCompound then throw .unsupported
  if (categories.eraseDupsBy Value.equal).length ≠ categories.length then throw .unconvertible
  let _ ← ofValues (⟨cells.toArray, rfl⟩ : Vector Value cells.length)
  let present := cells.filter fun cell => !missingValue cell
  if present.any Value.isCompound then throw .unsupported
  let meeting := meeting? known (inferred (⟨present.toArray, rfl⟩ : Vector Value present.length))
  let levels := categories.map Value.level
  let code (cell : Value) : Option (Fin levels.length) := do
    let kind ← meeting
    let k ← categories.findIdx? fun category =>
      (Value.stored kind category).equal (Value.stored kind cell)
    if inside : k < levels.length then some ⟨k, inside⟩ else none
  return .factor levels ⟨(cells.map code).toArray, by simp⟩

end Multilevel.Column

namespace Multilevel.Frame

/-- The table with the columns of some names, which must exist, turned into factors. -/
def withFactors (frame : Frame) (names : List String) : Except Fault Frame := do
  if names.any fun name => (frame.column? name).isNone then throw .unknownKey
  let columns ← frame.columns.mapM fun (name, column) => do
    return (name, ← if names.contains name then column.asFactor else .ok column)
  return ⟨frame.rows, columns⟩

end Multilevel.Frame
