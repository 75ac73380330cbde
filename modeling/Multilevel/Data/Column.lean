import Multilevel.Failure
import Multilevel.Number.Reader
import Multilevel.Value.Display

/-!
# Columns of a table

A column holds one cell per row, all of one kind. Cells may be missing: a floating-point cell
that is no number, a text or a level that is not there, a mixed cell that is nothing. A factor
holds positions in its list of levels.
-/
namespace Multilevel

/-- A column of the given number of cells. -/
inductive Column (rows : Nat) where
  | float (cells : Vector Float rows)
  /-- Integers that 64-bit words hold. -/
  | int (cells : Vector Int rows)
  /-- Integers that 64-bit words hold without a sign, one of them only so. -/
  | unsigned (cells : Vector Int rows)
  | bool (cells : Vector Bool rows)
  | text (cells : Vector (Option String) rows)
  /-- Cells of any kind. -/
  | mixed (cells : Vector Value rows)
  /-- Levels and the position of each cell's level. -/
  | factor (levels : List String) (codes : Vector (Option (Fin levels.length)) rows)
  deriving Repr

namespace Column

variable {rows : Nat}

/-- The levels of a factor, and nothing for other columns. -/
def levels? : Column rows → Option (List String)
  | factor levels _ => some levels
  | _ => none

/-- The column of integers, each of which has to be in the range of 64-bit words. -/
def ofIntegers (cells : Vector Int rows) : Except Fault (Column rows) :=
  if cells.toList.all Number.isWord then .ok (int cells) else .error .overflow

/-- Whether a column is a factor. -/
def isFactor (column : Column rows) : Bool := column.levels?.isSome

/-- Whether a column holds numbers, truth values apart. -/
def isNumeric : Column rows → Bool
  | float _ | int _ | unsigned _ => true
  | _ => false

/-- Whether a predictor of this kind enters a model as a factor. -/
def isCategorical (column : Column rows) : Bool := !column.isNumeric

/-- Whether a value of a mixed column is missing. -/
def missingValue : Value → Bool
  | .null => true
  | .float x => x.isNaN
  | _ => false

/-- Whether the cell of a row is missing. -/
def isMissing (column : Column rows) (row : Fin rows) : Bool :=
  match column with
  | float cells => cells[row].isNaN
  | int _ | unsigned _ | bool _ => false
  | text cells => cells[row].isNone
  | mixed cells => missingValue cells[row]
  | factor _ codes => codes[row].isNone

/-- The cell of a row as a factor level, unless it is missing. -/
def level? (column : Column rows) (row : Fin rows) : Option String :=
  if column.isMissing row then none
  else match column with
    | float cells => some (Number.display cells[row])
    | int cells | unsigned cells => some (toString cells[row])
    | bool cells => some (Value.bool cells[row]).level
    | text cells => cells[row]
    | mixed cells => some cells[row].level
    | factor levels codes => codes[row].map fun code => levels[code]

/-- Whether a cell has parts, so that the cells of the column cannot be looked up. -/
def hasCompound : Column rows → Bool
  | mixed cells => cells.any Value.isCompound
  | _ => false

/-- The cells of the given rows, in their order. -/
def pick (column : Column rows) (chosen : List (Fin rows)) : Column chosen.length :=
  let choose {α : Type} (cells : Vector α rows) : Vector α chosen.length :=
    ⟨(chosen.map fun row => cells[row]).toArray, by simp⟩
  match column with
  | float cells => float (choose cells)
  | int cells => int (choose cells)
  | unsigned cells => unsigned (choose cells)
  | bool cells => bool (choose cells)
  | text cells => text (choose cells)
  | mixed cells => mixed (choose cells)
  | factor levels codes => factor levels (choose codes)

/-- The number that a text spells, as a number of a column. -/
def numberOfText (text : String) : Except Fault Float :=
  match Number.float? text with
  | some x => .ok x
  | none => .error .unconvertible

/-- The number that a value stands for; nothing stands for no number. -/
def numberOfValue : Value → Except Fault Float
  | .null => .ok (0.0 / 0.0)
  | .bool b => .ok (if b then 1.0 else 0.0)
  | .int n => if Number.isRepresentable n then .ok (Number.ofInt n) else .error .overflow
  | .float x => .ok x
  | .text s => numberOfText s
  | .list _ => .error .unconvertible
  | .record _ | .function .. => .error .unsupported

/-- The cells as floating-point numbers. Texts and levels have to spell numbers, and a missing
cell is no number. -/
def numbers (column : Column rows) : Except Fault (Vector Float rows) :=
  let ofText (cell : Option String) : Except Fault Float :=
    match cell with
    | some written => numberOfText written
    | none => .ok (0.0 / 0.0)
  match column with
  | float cells => .ok cells
  | int cells | unsigned cells => .ok (cells.map Number.ofInt)
  | bool cells => .ok (cells.map fun b => if b then 1.0 else 0.0)
  | text cells => cells.mapM ofText
  | mixed cells => cells.mapM numberOfValue
  | factor levels codes => codes.mapM fun code => ofText (code.map fun code => levels[code])

/-- Whether two numbers are the same cell: equal, or both no number. -/
def sameNumber (x y : Float) : Bool := x == y || (x.isNaN && y.isNaN)

/-- Whether two columns hold the same cells. Factors are compared by the levels of their cells and
by the set of their levels, in whatever order the levels are listed. -/
def same : Column rows → Column rows → Bool
  | float a, float b => (a.toList.zip b.toList).all fun (x, y) => sameNumber x y
  | int a, int b => a == b
  | unsigned a, unsigned b => a == b
  | bool a, bool b => a == b
  | text a, text b => a == b
  | mixed a, mixed b => (a.toList.zip b.toList).all fun (x, y) => x.display == y.display
  | factor ls a, factor ms b =>
    ls.all ms.contains && ms.all ls.contains &&
      a.toList.map (Option.map fun code => ls[code]) ==
        b.toList.map (Option.map fun code => ms[code])
  | _, _ => false

end Column

end Multilevel
