import Mathlib
import Multilevel.Number.Binary64
import Multilevel.Program.BuildData
import Multilevel.Text.Digit

/-!
# Exact meaning of a program

What the statements of a generated program do when its numbers are exact rational numbers. Places
are counted from one, and a statement that reaches outside of an array, or combines arrays whose
sizes do not suit, has no meaning. The statements here are those of the linear predictor; log
densities, random draws and the scaling of varying coefficients have no meaning either.
-/
namespace Multilevel

/-- A value of a program. -/
inductive Exact where
  | int (n : Int)
  | real (x : Rat)
  | ints (values : List Int)
  | vector (values : List Rat)
  /-- A vector that lies in a row. -/
  | row (values : List Rat)
  /-- The rows of a matrix. -/
  | matrix (rows : List (List Rat))
  deriving Repr, DecidableEq

/-- A subscript or an argument. -/
inductive Place where
  | single (value : Exact)
  /-- All places of a dimension. -/
  | everywhere
  /-- The places from one to another. -/
  | span (first last : Int)
  deriving Repr, DecidableEq

/-- The value that is the only argument. -/
def Place.only? : List Place → Option Exact
  | [.single x] => some x
  | _ => none

/-- The values of a program's variables. -/
abbrev Values := Variable → Option Exact

/-- The values of the counters of the loops around a statement. -/
abbrev Counts := Counter → Option Int

namespace Exact

/-- The number that a value is. -/
def number? : Exact → Option Rat
  | int n => some n
  | real x => some x
  | _ => none

/-- The elements of an array, given for each place counted from zero. -/
def tabulate {α : Type} (size : Nat) (element : Nat → α) : List α := (List.range size).map element

/-- The integer that a value is. -/
def int? : Exact → Option Int
  | int n => some n
  | _ => none

/-- The element at a place. -/
def at? {α : Type} (values : List α) (place : Int) : Option α :=
  if 1 ≤ place then values[(place - 1).toNat]? else none

/-- The elements with another one at a place. -/
def put? {α : Type} (values : List α) (place : Int) (x : α) : Option (List α) :=
  if 1 ≤ place ∧ place ≤ values.length then some (values.set (place - 1).toNat x) else none

/-- The elements at the places from one to another. -/
def slice? {α : Type} (values : List α) (first last : Int) : Option (List α) :=
  (List.range (last - first + 1).toNat).mapM fun k => at? values (first + (k : Nat))

/-- The sum of two values, or their difference; a number is taken with each element. -/
def combine (wholes : Int → Int → Int) (reals : Rat → Rat → Rat) : Exact → Exact → Option Exact
  | int m, int n => some (int (wholes m n))
  | vector x, vector y =>
    if x.length = y.length then some (vector (x.zipWith reals y)) else none
  | row x, row y => if x.length = y.length then some (row (x.zipWith reals y)) else none
  | vector x, b => b.number?.map fun y => vector (x.map (reals · y))
  | row x, b => b.number?.map fun y => row (x.map (reals · y))
  | a, vector y => a.number?.map fun x => vector (y.map (reals x))
  | a, row y => a.number?.map fun x => row (y.map (reals x))
  | a, b => do real (reals (← a.number?) (← b.number?))

/-- The sum of the products of elements. -/
def dot (x y : List Rat) : Option Rat :=
  if x.length = y.length then some (x.zipWith (· * ·) y).sum else none

/-- The product of two values. -/
def times : Exact → Exact → Option Exact
  | int m, int n => some (int (m * n))
  | matrix rows, vector y => (rows.mapM (dot · y)).map vector
  | row x, vector y => (dot x y).map real
  | a, vector y => a.number?.map fun x => vector (y.map (x * ·))
  | vector x, b => b.number?.map fun y => vector (x.map (· * y))
  | a, b => do real ((← a.number?) * (← b.number?))

/-- The product of a matrix without its zeros and a vector. The entries of a row stand from where
the row starts to before the next row does. -/
def sparseTimes (rows columns : Int) (entries : List Rat) (places starts : List Int)
    (y : List Rat) : Option (List Rat) :=
  if starts.length = rows + 1 ∧ y.length = columns ∧ places.length = entries.length ∧
      starts.getLast? = some (entries.length + 1 : Int) ∧
      (places.all fun place => 1 ≤ place && place ≤ columns) = true then
    (List.range rows.toNat).mapM fun i => do
      let first ← starts[i]?
      let next ← starts[i + 1]?
      let x ← slice? entries first (next - 1)
      let own ← slice? places first (next - 1)
      dot x (← own.mapM (at? y))
  else none

/-- The value of a function at its arguments. -/
def apply (function : String) (arguments : List Place) : Option Exact :=
  match function, arguments with
  | "rep_vector", [.single x, .single (int n)] => x.number?.map fun x => vector (List.replicate n.toNat x)
  | "rep_matrix", [.single x, .single (int m), .single (int n)] =>
    x.number?.map fun x => matrix (List.replicate m.toNat (List.replicate n.toNat x))
  | "mean", [.single (vector x)] => if x.isEmpty then none else some (real (x.sum / x.length))
  | "dot_product", [.single (vector x), .single (vector y)] => (dot x y).map real
  | "csr_matrix_times_vector",
      [.single (int m), .single (int n), .single (vector w), .single (ints v), .single (ints u), .single (vector b)] =>
    (sparseTimes m n w v u b).map vector
  | _, _ => none

/-- The elements of an array at its subscripts. -/
def select (array : Exact) (places : List Place) : Option Exact :=
  match array, places with
  | ints values, [.single (int i)] => (at? values i).map int
  | vector values, [.single (int i)] => (at? values i).map real
  | row values, [.single (int i)] => (at? values i).map real
  | matrix rows, [.everywhere, .single (int j)] => (rows.mapM (at? · j)).map vector
  | matrix rows, [.single (int i), .single (int j)] => do real (← at? (← at? rows i) j)
  | matrix rows, [.single (int i), .span first last] => do row (← slice? (← at? rows i) first last)
  | _, _ => none

/-- The array with other elements at its subscripts. -/
def update (array : Exact) (places : List Place) (value : Exact) : Option Exact :=
  match array, places, value with
  | vector values, [.single (int i)], x => do vector (← put? values i (← x.number?))
  | matrix rows, [.everywhere, .single (int j)], vector x =>
    if rows.length = x.length then
      ((rows.zip x).mapM fun cell => put? cell.1 j cell.2).map matrix
    else none
  | matrix rows, [.single (int i), .single (int j)], x => do
    matrix (← put? rows i (← put? (← at? rows i) j (← x.number?)))
  | _, _, _ => none

/-- Whether two arrays have the same kind and sizes. -/
def sameShape : Exact → Exact → Bool
  | int _, int _ => true
  | ints x, ints y => x.length == y.length
  | vector x, vector y => x.length == y.length
  | row x, row y => x.length == y.length
  | matrix x, matrix y => x.map List.length == y.map List.length
  | _, _ => false

/-- A value as it is kept in place of another one. -/
def keep (old : Exact) (value : Exact) : Option Exact :=
  match old with
  | real _ => value.number?.map real
  | _ => if old.sameShape value then some value else none

end Exact

/-- What two expressions stand for with a mark between them. -/
def Operator.apply (op : Operator) (left right : List Place) : Option (List Place) :=
  match op, left, right with
  | comma, _, _ => some (left ++ right)
  | plus, [.single x], [.single y] => (x.combine (· + ·) (· + ·) y).map fun z => [.single z]
  | minus, [.single x], [.single y] => (x.combine (· - ·) (· - ·) y).map fun z => [.single z]
  | times, [.single x], [.single y] => (x.times y).map fun z => [.single z]
  | upTo, [.single (.int first)], [.single (.int last)] => some [.span first last]
  | _, _, _ => none

namespace Expr

/-- What an expression stands for: a value, or several subscripts or arguments. -/
def meaning (counts : Counts) (values : Values) : Expr → Option (List Place)
  | var v => (values v).map fun x => [.single x]
  | counter c => (counts c).map fun n => [.single (.int n)]
  | literal digits =>
    match Text.natural? digits with
    | some n => some [.single (.int n)]
    | none => (Text.decimal? digits).map fun x => [.single (.real x)]
  | verbatim _ => none
  | everything => some [.everywhere]
  | binary op left right => do
    op.apply (← left.meaning counts values) (← right.meaning counts values)
  | grouped inner => inner.meaning counts values
  | transposed _ => none
  | call function arguments => do
    (Exact.apply function (← arguments.meaning counts values)).map fun z => [.single z]
  | subscript array places => do
    let x ← Place.only? (← array.meaning counts values)
    (x.select (← places.meaning counts values)).map fun z => [.single z]

/-- The value of an expression. -/
def value? (counts : Counts) (values : Values) (e : Expr) : Option Exact := do
  Place.only? (← e.meaning counts values)

/-- The integer that an expression is. -/
def int? (counts : Counts) (values : Values) (e : Expr) : Option Int := do
  (← e.value? counts values).int?

end Expr

/-- A value of a type whose elements are all blank. Integers are never left blank. -/
def VariableType.filled (blank : Rat) (counts : Counts) (values : Values) :
    VariableType → Option Exact
  | int _ | ints _ _ => none
  | real _ => some (.real blank)
  | vector _ size => do
    return .vector (List.replicate (← size.int? counts values).toNat blank)
  | matrix rows columns => do
    return .matrix (List.replicate (← rows.int? counts values).toNat
      (List.replicate (← columns.int? counts values).toNat blank))
  | correlationFactor size | correlations size => do
    let n := (← size.int? counts values).toNat
    return .matrix (List.replicate n (List.replicate n blank))

namespace Statement

/-- The values after an assignment to a variable or to some of its elements. -/
def store (counts : Counts) (target : Expr) (x : Exact) (values : Values) : Option Values :=
  match target with
  | .var v => do return Function.update values v (some (← (← values v).keep x))
  | .subscript (.var v) places => do
    let places ← places.meaning counts values
    return Function.update values v (some (← (← values v).update places x))
  | _ => none

/-- The values after a statement. What is declared without a value is blank at first. -/
def run (blank : Rat) : Statement → Counts → Values → Option Values
  | skip, _, values => some values
  | seq first second, counts, values => do second.run blank counts (← first.run blank counts values)
  | comment _, _, values => some values
  | declare type v value _, counts, values => do
    let fresh ← type.filled blank counts values
    match value with
    | none => return Function.update values v (some fresh)
    | some e =>
      return Function.update values v (some (← fresh.keep (← e.value? counts values)))
  | assign target value, counts, values => do
    store counts target (← value.value? counts values) values
  | add target value, counts, values => do
    store counts target (← (target + value).value? counts values) values
  | increment _, _, _ => none
  | forEach counter last body, counts, values => do
    let n ← last.int? counts values
    (List.range n.toNat).foldlM (fun values k =>
      body.run blank (Function.update counts counter (some ((k + 1 : Nat) : Int))) values) values
  | .unless flag body, counts, values =>
    match values flag with
    | some (.int n) => if n = 0 then body.run blank counts values else some values
    | _ => none
  | redraw _ _ _ _, _, _ => none

end Statement

/-- The exact value of a datum; a number that is not finite counts as zero. -/
def Datum.exact? : Datum → Option Exact
  | .whole n => some (.int n.toInt)
  | .ints values => some (.ints values)
  | .reals values => some (.vector (values.map Number.exact))
  | .matrix rows => some (.matrix (rows.map fun row => row.map Number.exact))
  | .loose _ => none

/-- The values of the variables whose names the data have. -/
def BuildData.values (data : BuildData) : Values := fun v => (data.lookup v.name).bind Datum.exact?

/-- A draw of the coefficients of a model. -/
structure Draw where
  /-- The slopes, counted from zero. -/
  slopes : Nat → Rat
  /-- The intercept of the program. -/
  intercept : Rat
  /-- The coefficients of each term and level, counted from zero. -/
  effects : Nat → Nat → Nat → Rat

/-- The values of a program's data together with a draw of its coefficients. -/
def Specification.start (s : Specification) (data : BuildData) (draw : Draw) : Values
  | .slopes =>
    if s.hasSlopes then some (.vector (Exact.tabulate s.terms.population.length draw.slopes))
    else none
  | .temporaryIntercept => if s.terms.intercept then some (.real draw.intercept) else none
  | .effects i => (s.terms.groups.find? fun group => group.id = i).map fun group =>
    .matrix (Exact.tabulate group.levels.length fun level =>
      Exact.tabulate group.size (draw.effects i level))
  | v => data.values v

end Multilevel
