import Multilevel.CommandLine.Cell
import Multilevel.Data.Frame
import Multilevel.Entries

/-!
# Tables in text files

A table is written one row a line, its cells between commas; the first row names the columns. A
cell in quotes may hold commas, line ends and, written twice, quotes. Lines of blanks are skipped. A
column holds integers, numbers, truth values or texts, whatever all its cells are.
-/
namespace Multilevel.TableText

/-- The cells and rows read so far. -/
structure ReadState where
  rows : List (List String) := []
  cells : List String := []
  /-- The characters of the cell that is being read, the last one first. -/
  cell : List Char := []
  /-- Whether a quote is open. -/
  quoted : Bool := false
  /-- Whether the row had a quote. -/
  hadQuote : Bool := false

namespace ReadState

/-- The state after a cell ends. -/
def endCell (s : ReadState) : ReadState :=
  { s with cells := s.cells ++ [String.ofList s.cell.reverse], cell := [] }

/-- Whether the row that is being read is a line of blanks. -/
def isIdle (s : ReadState) : Bool :=
  s.cells.isEmpty && !s.hadQuote && s.cell.all fun c => c = ' ' || c = '\t'

/-- The state after a row ends. -/
def endRow (s : ReadState) : ReadState :=
  if s.isIdle then { s with cell := [] }
  else { rows := s.rows ++ [s.endCell.cells] }

end ReadState

/-- Reads characters to the end. -/
def readFrom (s : ReadState) : List Char → ReadState
  | [] => s.endRow
  | '"' :: rest =>
    if s.quoted then
      match rest with
      | '"' :: rest => readFrom { s with cell := '"' :: s.cell } rest
      | rest => readFrom { s with quoted := false } rest
    else if s.cell.isEmpty then readFrom { s with quoted := true, hadQuote := true } rest
    else readFrom { s with cell := '"' :: s.cell } rest
  | '\r' :: rest =>
    if s.quoted then readFrom { s with cell := '\r' :: s.cell } rest
    else
      match rest with
      | '\n' :: rest => readFrom s.endRow rest
      | rest => readFrom s.endRow rest
  | c :: rest =>
    if s.quoted then readFrom { s with cell := c :: s.cell } rest
    else if c = '\n' then readFrom s.endRow rest
    else if c = ',' then readFrom s.endCell rest
    else readFrom { s with cell := c :: s.cell } rest

/-- The rows of a text. -/
def rowsOf (text : String) : List (List String) := (readFrom {} text.toList).rows

/-- The column of integers and missing cells, of which one is outside of the range of 64-bit words.
Words without a sign hold integers that are not negative if no cell is missing. -/
def largeColumnOf {rows : Nat} (given : Vector (Option String) rows) : Column rows :=
  let whole (cell : Option String) : Int := (cell.bind wholeOf?).getD 0
  let integers := given.toList.map whole
  let complete := given.toList.all Option.isSome
  let anyHigh := integers.any Number.isHighWord
  if integers.any fun n => !Number.isWord n && 0 ≤ n && !Number.isHighWord n then
    .mixed (given.map fun cell => match cell.bind wholeOf? with
      | some n => .int n
      | none => .null)
  else if anyHigh && complete && !integers.any (· < 0) then .unsigned (given.map whole)
  else .text given

/-- The column that cells are: the first kind that suits all of them. Without any cell the kind
stays open. -/
def columnOf {rows : Nat} (cells : Vector String rows) : Column rows :=
  let given := cells.map cellOf
  let present := given.toList.filterMap id
  let complete := present.length = rows
  let allWhole := present.all fun cell => (wholeOf? cell).isSome
  let number? (cell : String) : Option Float :=
    if allWhole then (wholeOf? cell).map Number.ofInt else realOf? cell
  if rows = 0 then .mixed (given.map fun _ => .null)
  else if allWhole && present.any fun cell => (wholeOf? cell).any fun n => !Number.isWord n then
    largeColumnOf given
  else if complete && allWhole then
    .int (given.map fun cell => (cell.bind wholeOf?).getD 0)
  else if present.all fun cell => (number? cell).isSome then
    .float (given.map fun cell => (cell.bind number?).getD (0.0 / 0.0))
  else if present.all fun cell => (truthOf? cell).isSome then
    if complete then .bool (given.map fun cell => (cell.bind truthOf?).getD false)
    else .mixed (given.map fun cell => match cell.bind truthOf? with
      | some b => .bool b
      | none => .null)
  else .text given

/-- The name of a column, by its place if it has none. -/
def columnName (name : String) (place : Nat) : String :=
  if name.isEmpty then s!"Unnamed: {place}" else name

/-- A name with the least number that no earlier name has, if it was met before. -/
def freshName (met : List String) (name : String) : Nat → Nat → String
  | 0, number => s!"{name}.{number}"
  | fuel + 1, number =>
    if met.contains s!"{name}.{number}" then freshName met name fuel (number + 1)
    else s!"{name}.{number}"

/-- The names of columns, no two of them the same. -/
def columnNames (names : List String) : List String :=
  (names.zipIdx.map fun (name, place) => columnName name place).foldl
    (fun met name => met ++ [if met.contains name then freshName met name met.length 1 else name])
    []

/-- A table. The first row tells how many cells a row may have; what it has more than there are
names stands in front and is no column. Cells that a row lacks are missing. -/
def read (text : String) : Except Fault Frame :=
  match rowsOf text with
  | [] => .error .emptyTable
  | header :: rows =>
    let names := columnNames header
    let width := (rows.map List.length).headD names.length
    let lead := width - names.length
    if rows.any fun row => lead + names.length < row.length then .error .malformedTable
    else
      let cellsAt (place : Nat) : Vector String rows.length :=
        ⟨(rows.map fun row => row.getD (lead + place) "").toArray, by simp⟩
      .ok ⟨rows.length, names.zipIdx.map fun (name, place) => (name, columnOf (cellsAt place))⟩

/-- The written form of a cell. -/
def writeCell (cell : String) : String :=
  if cell.toList.any fun c => c = ',' || c = '"' || c = '\n' || c = '\r' then
    "\"" ++ cell.replace "\"" "\"\"" ++ "\""
  else cell

/-- The written form of rows. -/
def write (rows : List (List String)) : String :=
  String.join (rows.map fun row => ",".intercalate (row.map writeCell) ++ "\n")

end Multilevel.TableText
