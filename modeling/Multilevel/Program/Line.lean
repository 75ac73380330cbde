import Multilevel.Text.Blank

/-!
# Lines of a program

A line of a program is code with an optional comment, indented by its level. `finishLine` ends
code with a semicolon where one is needed and sets the comment two blanks apart. The code of the
user is indented and otherwise pasted as it is.
-/
namespace Multilevel.Program

/-- A line that has not been finished yet: its level and its text. -/
structure Line where
  /-- How deep the line is nested. -/
  level : Int
  /-- Code with an optional comment. -/
  text : String
  deriving Repr, DecidableEq

/-- Splits a text at the two strokes that start a comment. -/
def splitComment : List Char → List Char × Option (List Char)
  | [] => ([], none)
  | [c] => ([c], none)
  | c :: d :: rest =>
    if c = '/' ∧ d = '/' then ([], some rest)
    else
      let (code, comment) := splitComment (d :: rest)
      (c :: code, comment)

/-- Whether code ends a statement or opens or closes a block. -/
def isEnded (code : List Char) : Bool :=
  match code.getLast? with
  | none => true
  | some c => c == '\x7b' || c == '\x7d' || c == ';'

/-- The blanks in front of a line. -/
def indentation (level : Int) : String := "".pushn ' ' (2 * level).toNat

/-- A finished line. -/
def finishLine (line : Line) : String :=
  let (code, comment) := splitComment line.text.toList
  let code := Text.stripEnd code
  let code := if isEnded code then code else code ++ [';']
  let body := match comment with
    | none => code
    | some comment =>
      if code.isEmpty then '/' :: '/' :: comment else code ++ ' ' :: ' ' :: '/' :: '/' :: comment
  indentation line.level ++ String.ofList body

/-- Finished lines, one below the other, all nested by a level. -/
def joinLines (level : Int) (lines : List Line) : String :=
  "\n".intercalate (lines.map fun line => finishLine { line with level := line.level + level })

/-- Code of the user inside of a block. -/
def indentFragment (code : String) : String :=
  "\n".intercalate ((Text.splitLines code).map ("  " ++ ·))

/-- A block of a program: its lines, then the code of the user. -/
def blockText (name : String) (lines : List Line) (fragment : String) : String :=
  let body := joinLines 1 lines
  let parts := if fragment.isEmpty then [body] else [body, indentFragment fragment]
  let body := "\n".intercalate (parts.filter fun part => !part.isEmpty)
  if body.isEmpty then s!"{name} \x7b\n\x7d" else s!"{name} \x7b\n{body}\n\x7d"

end Multilevel.Program
