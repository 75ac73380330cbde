import Multilevel.Data.Frame
import Multilevel.Data.Inferred

/-!
# Data as a caller gives them

Data are a table, or a record of columns whose kinds are inferred from their values. A column of
a record may be a record itself, whose keys name the rows, or a single value, which is repeated in
every row.
-/
namespace Multilevel

/-- A column of a record. -/
inductive RecordColumn where
  /-- One value per row. -/
  | cells (values : List Value)
  /-- Values under the names of their rows. -/
  | keyed (fields : List (String × Value))
  /-- One value for all rows. -/
  | repeated (value : Value)
  deriving Repr

namespace RecordColumn

/-- The column that a value stands for. -/
def ofValue : Value → RecordColumn
  | .list values => cells values
  | .record fields => keyed fields
  | value => repeated value

/-- The number of values of a list. -/
def length? : RecordColumn → Option Nat
  | cells values => some values.length
  | _ => none

/-- The names of the rows, if the column tells them. -/
def keys? : RecordColumn → Option (List String)
  | keyed fields => some (fields.map Prod.fst)
  | _ => none

/-- The column under the names of all rows. A row that a column does not name is missing. -/
def resolve (rows : Nat) (names : List String) : RecordColumn → Except Failure (Column rows)
  | cells values => listed values
  | keyed fields => listed (names.map fun name => (fields.lookup name).getD (.float (0.0 / 0.0)))
  | repeated value => return Column.inferred (Vector.replicate rows value)
where
  /-- The column of a list of values, one per row. -/
  listed (values : List Value) : Except Failure (Column rows) := do
    if same : values.length = rows then
      Column.ofValues ⟨values.toArray, by simpa using same⟩
    else refuse DataError.lengths

end RecordColumn

/-- Data as a caller gives them. -/
inductive DataSource where
  | table (frame : Frame)
  | record (columns : List (String × RecordColumn))
  /-- Anything else, of which the kind is known. -/
  | other (kind : String)
  deriving Repr

namespace DataSource

/-- The names of the rows, from all columns that tell them. -/
def rowNames (columns : List RecordColumn) : List String :=
  (columns.filterMap RecordColumn.keys?).flatten.eraseDups

/-- The number of rows that columns agree on. Lists must be of one length, names of rows go without
lists, and single values do not tell the number. -/
def rowCount (columns : List RecordColumn) : Except DataError Nat :=
  let named := columns.any fun column => column.keys?.isSome
  match columns.filterMap RecordColumn.length? with
  | [] =>
    if named || columns.isEmpty then .ok (rowNames columns).length else .error .noLength
  | rows :: others =>
    if others.any (· ≠ rows) then .error .lengths
    else if named then .error .namedRows
    else .ok rows

/-- The table of a record. -/
def ofRecord (columns : List (String × RecordColumn)) : Except Failure Frame := do
  let given := columns.map Prod.snd
  let rows ← rowCount given
  let names := rowNames given
  return ⟨rows, ← columns.mapM fun (name, column) => return (name, ← column.resolve rows names)⟩

/-- The table that the data are. -/
def frame : DataSource → Except Failure Frame
  | table frame => return frame
  | record columns => ofRecord columns
  | other kind => refuse (DataError.notTable kind)

end DataSource

end Multilevel
