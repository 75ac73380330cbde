import Multilevel.Data.Column
import Multilevel.Entries

/-!
# Tables

A table is a list of named columns with one cell per row each. Its operations keep the rows
whole: `pick` chooses rows for all columns at once, `select` chooses columns, and `put` replaces
a column or adds one.
-/
namespace Multilevel

/-- A table. -/
structure Frame where
  /-- The number of rows. -/
  rows : Nat
  /-- The columns under their names, in order. -/
  columns : List (String × Column rows)
  deriving Repr

namespace Frame

/-- The table of columns of any lengths, which must be equal. Of two columns with one name the
later replaces the earlier. -/
def ofColumns (columns : List (String × (rows : Nat) × Column rows)) : Except Fault Frame :=
  match columns with
  | [] => .ok ⟨0, []⟩
  | (_, ⟨rows, _⟩) :: _ => do
    let fitted ← columns.mapM fun (name, ⟨count, column⟩) =>
      if same : count = rows then .ok (name, (same ▸ column : Column rows))
      else .error .unconvertible
    return ⟨rows, Entries.putAll [] fitted⟩

/-- The names of the columns. -/
def names (frame : Frame) : List String := frame.columns.map Prod.fst

/-- The column of a name. -/
def column? (frame : Frame) (name : String) : Option (Column frame.rows) :=
  frame.columns.lookup name

/-- The column of a name, which must exist. -/
def column (frame : Frame) (name : String) : Except Fault (Column frame.rows) :=
  match frame.column? name with
  | some column => .ok column
  | none => .error .unknownKey

/-- The columns of the given names in the given order; all must exist. -/
def select (frame : Frame) (names : List String) : Except Fault Frame := do
  let columns ← names.mapM fun name => return (name, ← frame.column name)
  return ⟨frame.rows, columns⟩

/-- The given rows in the given order. -/
def pick (frame : Frame) (chosen : List (Fin frame.rows)) : Frame :=
  ⟨chosen.length, frame.columns.map fun (name, column) => (name, column.pick chosen)⟩

/-- Applies a function to the column of a name, wherever it stands. -/
def adjust (frame : Frame) (name : String) (f : Column frame.rows → Column frame.rows) : Frame :=
  ⟨frame.rows, Entries.adjust frame.columns name f⟩

/-- Whether no cell of a row is missing. -/
def isComplete (frame : Frame) (row : Fin frame.rows) : Bool :=
  frame.columns.all fun (_, column) => !column.isMissing row

/-- The complete rows in order. -/
def completeRows (frame : Frame) : List (Fin frame.rows) :=
  (List.finRange frame.rows).filter frame.isComplete

/-- The table without its incomplete rows. -/
def complete (frame : Frame) : Frame := frame.pick frame.completeRows

/-- Whether two tables have the same columns under the same names in the same order. -/
def same (a b : Frame) : Bool :=
  if h : a.rows = b.rows then
    a.names == b.names &&
      (a.columns.zip b.columns).all fun ((_, x), (_, y)) => (h ▸ x).same y
  else false

end Frame

end Multilevel
