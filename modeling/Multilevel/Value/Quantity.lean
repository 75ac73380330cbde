import Multilevel.Value.Display

/-!
# Numbers as arguments

Where an integer is asked for, a truth value may be given: it counts as zero or one, and wherever
the argument is shown it is shown as it was given. Where any number will do, an integer keeps its
kind: it is shown and handed on as an integer.
-/
namespace Multilevel

/-- An integer argument. -/
inductive Whole where
  | int (n : Int)
  | truth (b : Bool)
  deriving Repr, DecidableEq, Inhabited

namespace Whole

/-- The integer that an argument counts as. -/
def toInt : Whole → Int
  | int n => n
  | truth b => if b then 1 else 0

/-- The argument as a value. -/
def value : Whole → Value
  | int n => .int n
  | truth b => .bool b

/-- An optional argument as a value. -/
def optionalValue (w : Option Whole) : Value := (w.map value).getD .null

/-- The displayed form of an argument. -/
def text (w : Whole) : String := w.value.display

/-- The integer argument that a value is, if it is one. -/
def ofValue? : Value → Option Whole
  | .int n => some (int n)
  | .bool b => some (truth b)
  | _ => none

instance : OfNat Whole n := ⟨int n⟩

end Whole

/-- A number given as an argument. -/
inductive Quantity where
  | whole (n : Whole)
  | real (x : Float)
  deriving Repr

namespace Quantity

/-- The number as a value. -/
def value : Quantity → Value
  | whole n => n.value
  | real x => .float x

/-- The displayed form of a number. -/
def text (q : Quantity) : String := q.value.display

/-- The number that a value is, if it is one. -/
def ofValue? : Value → Option Quantity
  | .float x => some (real x)
  | v => (Whole.ofValue? v).map whole

/-- Whether a number lies below an integer. -/
def isBelow (q : Quantity) (bound : Int) : Bool :=
  match q with
  | whole n => decide (n.toInt < bound)
  | real x => decide (x < Number.ofInt bound)

/-- Whether a number is at most another one. -/
def isAtMost (q r : Quantity) : Bool :=
  match q, r with
  | whole m, whole n => decide (m.toInt ≤ n.toInt)
  | whole m, real y => decide (Number.ofInt m.toInt ≤ y)
  | real x, whole n => decide (x ≤ Number.ofInt n.toInt)
  | real x, real y => decide (x ≤ y)

/-- Whether a number is exactly an integer. -/
def isExactly (q : Quantity) (n : Int) : Bool :=
  match q with
  | whole m => m.toInt == n
  | real x => Number.isExactly x n

end Quantity

end Multilevel
