import Multilevel.Data.Frame

/-!
# Order of rows

Rows are ordered by the cells of one column or of several, missing cells last and without moving
rows that tie. Cells are compared by their keys: numbers by value, whatever their kind, texts by
their characters, levels by their place in the factor.
-/
namespace Multilevel

/-- What a cell counts as when rows are compared. -/
inductive Key where
  /-- Minus or plus infinity. -/
  | infinite (negative : Bool)
  | number (value : Rat)
  | text (characters : String)
  deriving DecidableEq

namespace Key

/-- The key of a floating-point number, unless it is none. -/
def ofFloat? (x : Float) : Option Key :=
  match Number.Reading.ofFloat x with
  | .nan => none
  | .infinite negative => some (infinite negative)
  | .finite .. => some (number (Number.exact x))

/-- The key of a value; a missing one and one that cannot be ordered has none. -/
def ofValue? : Value → Option Key
  | .bool b => some (number (if b then 1 else 0))
  | .int n => some (number n)
  | .float x => ofFloat? x
  | .text s => some (text s)
  | _ => none

/-- Whether a key is a text. -/
def isText : Key → Bool
  | text _ => true
  | _ => false

/-- Whether a key comes before another one or ties with it. Numbers come before texts. -/
def le : Key → Key → Bool
  | infinite true, _ => true
  | _, infinite true => false
  | number a, number b => a ≤ b
  | number _, _ => true
  | infinite false, number _ => false
  | infinite false, _ => true
  | text a, text b => a ≤ b
  | text _, _ => false

/-- The order of keys that may be missing: a missing one comes last. -/
def leMissing : Option Key → Option Key → Bool
  | some a, some b => a.le b
  | some _, none => true
  | none, some _ => false
  | none, none => true

/-- The order of lists of keys: the first difference decides. -/
def leList : List (Option Key) → List (Option Key) → Bool
  | a :: as, b :: bs => if a = b then leList as bs else leMissing a b
  | _, _ => true

end Key

/-- The key of a row's cell. -/
def Column.key? {rows : Nat} (column : Column rows) (row : Fin rows) : Option Key :=
  match column with
  | float cells => Key.ofFloat? (cells.get row)
  | int cells | unsigned cells => some (.number (cells.get row))
  | bool cells => some (.number (if cells.get row then 1 else 0))
  | text cells => (cells.get row).map .text
  | mixed cells => Key.ofValue? (cells.get row)
  | factor _ codes => (codes.get row).map fun code => .number (code.val : Int)

/-- Whether all cells of a column can be compared with each other. A single one can. -/
def Column.isOrdered {rows : Nat} (column : Column rows) : Bool :=
  let present := (List.finRange rows).filter fun row => !column.isMissing row
  let keys := present.map column.key?
  present.length ≤ 1 || keys.all (fun key => key.any Key.isText) ||
    keys.all (fun key => key.any fun key => !key.isText)

namespace Frame

/-- The rows of a table in the order of some of its columns, of which the first decides first. -/
def orderedRows (frame : Frame) (columns : List (Column frame.rows)) : List (Fin frame.rows) :=
  (List.finRange frame.rows).mergeSort fun a b =>
    Key.leList (columns.map fun column => column.key? a) (columns.map fun column => column.key? b)

/-- The table with its rows in the order of the named columns. A single column of numbers and texts
has no order; of several columns, numbers come before texts, and no cell may have parts. -/
def sortBy (frame : Frame) (names : List String) : Except Fault Frame := do
  let columns ← names.mapM frame.column
  match columns with
  | [column] => if !column.isOrdered then throw .unsupported
  | columns => if columns.any Column.hasCompound then throw .unsupported
  return frame.pick (frame.orderedRows columns)

end Frame

end Multilevel
