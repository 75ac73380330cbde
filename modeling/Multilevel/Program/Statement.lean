import Multilevel.Program.Expression
import Multilevel.Program.Line

/-!
# Statements of a program

Declarations and statements of a generated program. Each is written as lines; loops and
conditions nest the lines of their bodies one level deeper.
-/
namespace Multilevel

/-- Bounds of a variable's values. -/
structure Bounds where
  lower : Option String := none
  upper : Option String := none
  deriving Repr, DecidableEq, Inhabited

/-- The text of bounds. -/
def Bounds.text (bounds : Bounds) : String :=
  let parts := (bounds.lower.map ("lower=" ++ ·)).toList ++
    (bounds.upper.map ("upper=" ++ ·)).toList
  if parts.isEmpty then "" else "<" ++ ", ".intercalate parts ++ ">"

/-- The type of a variable. -/
inductive VariableType where
  | int (bounds : Bounds)
  | real (bounds : Bounds)
  | vector (bounds : Bounds) (size : Expr)
  | matrix (rows columns : Expr)
  /-- An array of integers. -/
  | ints (size : Expr) (bounds : Bounds)
  /-- The Cholesky factor of a correlation matrix. -/
  | correlationFactor (size : Expr)
  | correlations (size : Expr)
  deriving Repr, DecidableEq, Inhabited

namespace VariableType

/-- The text of a type. -/
def text : VariableType → String
  | int bounds => "int" ++ bounds.text
  | real bounds => "real" ++ bounds.text
  | vector bounds size => s!"vector{bounds.text}[{size.text}]"
  | matrix rows columns => s!"matrix[{rows.text}, {columns.text}]"
  | ints size bounds => s!"array[{size.text}] int{bounds.text}"
  | correlationFactor size => s!"cholesky_factor_corr[{size.text}]"
  | correlations size => s!"corr_matrix[{size.text}]"

/-- The variables that the sizes of a type use. -/
def uses : VariableType → List Variable
  | int _ | real _ => []
  | vector _ size | ints size _ | correlationFactor size | correlations size => size.uses
  | matrix rows columns => rows.uses ++ columns.uses

end VariableType

/-- A declaration or a statement. -/
inductive Statement where
  | skip
  | seq (first second : Statement)
  | comment (text : String)
  /-- Declares a variable, with a value or without, and says in a note what it holds. -/
  | declare (type : VariableType) (v : Variable) (value : Option Expr) (note : String)
  | assign (target value : Expr)
  | add (target value : Expr)
  /-- Adds a log density to the target. -/
  | increment (density : Expr)
  | forEach (counter : Counter) (last : Expr) (body : Statement)
  /-- Runs the body unless a flag is set. -/
  | unless (flag : Variable) (body : Statement)
  /-- Draws a variable anew while it lies outside of its bounds. -/
  | redraw (v : Variable) (lower : String) (upper : Option String) (draw : Expr)
  deriving Repr, DecidableEq, Inhabited

namespace Statement

/-- Statements in order. -/
def ofList (statements : List Statement) : Statement := statements.foldr seq skip

/-- A text with a note behind it. -/
def noted (text note : String) : String := if note.isEmpty then text else text ++ "  // " ++ note

/-- The condition under which a draw lies outside of its bounds. -/
def outside (v : Variable) (lower : String) (upper : Option String) : String :=
  v.name ++ " < " ++ lower ++
    (match upper with
      | some upper => " || " ++ v.name ++ " > " ++ upper
      | none => "")

/-- The lines of a statement at a level. -/
def lines (level : Int) : Statement → List Program.Line
  | skip => []
  | seq first second => lines level first ++ lines level second
  | comment text => [⟨level, "// " ++ text⟩]
  | declare type v value note =>
    let definition := match value with
      | some value => " = " ++ value.text
      | none => ""
    [⟨level, noted (type.text ++ " " ++ v.name ++ definition) note⟩]
  | assign target value => [⟨level, target.text ++ " = " ++ value.text⟩]
  | add target value => [⟨level, target.text ++ " += " ++ value.text⟩]
  | increment density => [⟨level, "target += " ++ density.text⟩]
  | forEach counter last body =>
    ⟨level, s!"for ({counter.name} in 1:{last.text}) \x7b"⟩ :: lines (level + 1) body
      ++ [⟨level, "\x7d"⟩]
  | .unless flag body =>
    ⟨level, s!"if (!{flag.name}) \x7b"⟩ :: lines (level + 1) body ++ [⟨level, "\x7d"⟩]
  | redraw v lower upper draw =>
    [⟨level, s!"while ({outside v lower upper}) \x7b"⟩,
      ⟨level + 1, v.name ++ " = " ++ draw.text⟩, ⟨level, "\x7d"⟩]

/-- The variables that a statement declares for the statements after it. Those of a body are
visible in the body alone. -/
def declared : Statement → List Variable
  | seq first second => first.declared ++ second.declared
  | declare _ v _ _ => [v]
  | _ => []

end Statement

end Multilevel
