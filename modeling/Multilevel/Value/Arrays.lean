import Multilevel.Value.Display
import Multilevel.Failure
import Multilevel.Number.Reader

/-!
# Values as arrays

Nested lists of equal lengths are arrays: a shape, and the values at its places in row order.
A value that is no list is an array without dimensions. Lists of different lengths on one level
are no array.
-/
namespace Multilevel

/-- A rectangular array of values. -/
structure Cells where
  /-- The lengths of the dimensions, the outermost first. -/
  shape : List Nat
  /-- The values in row order. -/
  leaves : List Value
  deriving Repr

/-- The displayed form of a shape. -/
def displayShape (shape : List Nat) : String :=
  match shape with
  | [n] => s!"({n},)"
  | ns => "(" ++ ", ".intercalate (ns.map toString) ++ ")"

namespace Value

mutual

/-- The array that a value is. -/
def cells : Value → Except Fault Cells
  | list items => do
    match ← cellsOfItems items with
    | [] => .ok ⟨[0], []⟩
    | first :: rest =>
      if rest.all fun c => c.shape == first.shape then
        .ok ⟨(rest.length + 1) :: first.shape, (first :: rest).flatMap Cells.leaves⟩
      else .error .unconvertible
  | value => .ok ⟨[], [value]⟩

/-- The arrays that the items of a list are. -/
def cellsOfItems : List Value → Except Fault (List Cells)
  | [] => .ok []
  | item :: rest => do
    let first ← cells item
    return first :: (← cellsOfItems rest)

end

/-- The integer that a value counts as in a comparison: truth values are zero or one. -/
def integer? : Value → Option Int
  | bool b => some (if b then 1 else 0)
  | int n => some n
  | _ => none

/-- Whether two values are the same number, whatever their kind. -/
def sameNumber : Value → Value → Bool
  | float x, float y => x == y
  | float x, value | value, float x =>
    match value.integer? with
    | some n => Number.isExactly x n
    | none => false
  | a, b =>
    match a.integer?, b.integer? with
    | some m, some n => m == n
    | _, _ => false

mutual

/-- Whether two values are equal. Numbers are compared by value, whatever their kind; records by
their fields, in whatever order they stand. -/
def equal : Value → Value → Bool
  | null, null => true
  | text a, text b => a == b
  | list as, list bs => equalItems as bs
  | record as, record bs => as.length == bs.length && equalFields as bs
  | a, b => sameNumber a b

/-- Whether two lists hold equal values. -/
def equalItems : List Value → List Value → Bool
  | [], [] => true
  | a :: as, b :: bs => equal a b && equalItems as bs
  | _, _ => false

/-- Whether all fields have an equal counterpart. -/
def equalFields : List (String × Value) → List (String × Value) → Bool
  | [], _ => true
  | (key, a) :: rest, fields =>
    (match fields.lookup key with
      | some b => equal a b
      | none => false) && equalFields rest fields

end

/-- How the leaves of an array are stored. -/
inductive LeafKind where
  /-- As integers of one kind of 64-bit words. -/
  | whole
  /-- As floating-point numbers. -/
  | real
  /-- As texts. -/
  | text
  /-- Each as it is. -/
  | loose
  deriving Repr, DecidableEq

/-- Whether a value is neither a number of a word nor a text. -/
def isLoose : Value → Bool
  | int n => !(Number.isWord n || Number.isHighWord n)
  | bool _ | float _ | text _ => false
  | _ => true

/-- How leaves are stored together: a text makes texts of numbers, and numbers are integers as long
as one kind of 64-bit words holds all of them. -/
def leafKind (leaves : List Value) : LeafKind :=
  let some? (holds : Int → Bool) : Bool := leaves.any fun v => match v with
    | int n => holds n
    | _ => false
  if leaves.any isLoose then .loose
  else if leaves.any fun v => match v with
      | text _ => true
      | _ => false then .text
  else if leaves.any fun v => match v with
      | float _ => true
      | _ => false then .real
  else if some? Number.isWord && some? Number.isHighWord then .real
  else .whole

/-- A leaf as it is stored: among texts numbers are spelled out. -/
def stored (kind : LeafKind) (value : Value) : Value :=
  match kind, value with
  | .text, bool _ | .text, int _ | .text, float _ => text value.level
  | .real, value =>
    match value.integer? with
    | some n => float (Number.ofInt n)
    | none => value
  | _, value => value

/-- How leaves are stored when they are compared with others: integers as floating-point numbers if
the others are. -/
def LeafKind.beside (kind other : LeafKind) : LeafKind :=
  if kind = .whole && other = .real then .real else kind

/-- Whether two values are the same array: the same shape and equal leaves. -/
def sameArray (a b : Value) : Except Fault Bool := do
  let x ← a.cells
  let y ← b.cells
  let left := leafKind x.leaves
  let right := leafKind y.leaves
  return x.shape == y.shape && equalItems (x.leaves.map (stored (left.beside right)))
    (y.leaves.map (stored (right.beside left)))

end Value

end Multilevel
