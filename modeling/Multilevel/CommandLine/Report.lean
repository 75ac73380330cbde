import Multilevel.CommandLine.Table
import Multilevel.Draws.Summary

/-!
# Reports

A summary is shown as a table of text: labels to the left, numbers with three places to the right
of their columns, and a line with the name of the labels under the header. In a file it is a table
of cells with all digits.
-/
namespace Multilevel.SummaryTable

/-- The name of the labels. -/
def labelTitle : String := "parameter"

/-- A text filled up with blanks at its end. -/
def padEnd (width : Nat) (text : String) : String :=
  text ++ String.ofList (List.replicate (width - text.length) ' ')

/-- A text filled up with blanks at its start. -/
def padStart (width : Nat) (text : String) : String :=
  String.ofList (List.replicate (width - text.length) ' ') ++ text

/-- The length of the longest text. -/
def widest (texts : List String) : Nat := (texts.map String.length).foldl max 0

/-- A character of a label: line ends and tabs are shown by their signs. -/
def labelChar : Char → List Char
  | '\n' => ['\\', 'n']
  | '\r' => ['\\', 'r']
  | '\t' => ['\\', 't']
  | c => [c]

/-- The shown form of a label. -/
def labelText (label : String) : String := String.ofList (label.toList.flatMap labelChar)

/-- The shown form of a number. -/
def cellText (x : Float) : String := if x.isNaN then "NaN" else Number.fixed 3 x

/-- The lines of a column: its name, an empty one and its cells, as wide as the widest. -/
def columnLines (name : String) (cells : List Float) : List String :=
  let texts := name :: "" :: cells.map cellText
  texts.map (padStart (widest texts))

/-- The lines of the labels. -/
def labelLines (labels : List String) : List String :=
  let texts := "" :: labelTitle :: labels.map labelText
  texts.map (padEnd (widest texts))

/-- Lines side by side, with a blank between them. -/
def beside (left right : List String) : List String :=
  (left.zip right).map fun (a, b) => a ++ " " ++ b

/-- The cells of the columns. -/
def columnsOf (t : SummaryTable) : List (String × List Float) :=
  t.columns.zipIdx.map fun (name, k) =>
    (name, t.rows.map fun (_, cells) => cells.getD k (0.0 / 0.0))

/-- The shown form of a summary. -/
def text (t : SummaryTable) : String :=
  if t.rows.isEmpty then "Empty DataFrame\nColumns: []\nIndex: []"
  else
    "\n".intercalate (t.columnsOf.foldl
      (fun lines (name, cells) => beside lines (columnLines name cells))
      (labelLines (t.rows.map Prod.fst)))

/-- The number as a cell of a file. -/
def fileCell (x : Float) : String := if x.isNaN then "" else Number.display x

/-- The summary as the text of a file. -/
def fileText (t : SummaryTable) : String :=
  TableText.write ((labelTitle :: t.columns) ::
    t.rows.map fun (label, cells) => label :: cells.map fileCell)

/-- The summary that the text of a file holds. -/
def ofFileText (file : String) : SummaryTable :=
  match TableText.rowsOf file with
  | [] => ⟨[], []⟩
  | header :: rows =>
    ⟨header.drop 1, rows.map fun row =>
      (row.headD "", (row.drop 1).map fun cell => (Number.float? cell).getD (0.0 / 0.0))⟩

end Multilevel.SummaryTable
