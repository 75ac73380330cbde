import Multilevel.Terms.Tree
import Multilevel.Value.Arrays

/-!
# Known covariance of levels

The covariance matrix of the levels of a grouping factor may be known. It is given as a plain
matrix in the order of the levels, or with labels, by which its rows and columns are picked. It
has to be symmetric and positive definite; its Cholesky factor joins the data of the model.
-/
namespace Multilevel

/-- A covariance matrix as a caller gives it. -/
inductive CovarianceSource where
  /-- Nested lists of numbers. -/
  | plain (matrix : Value)
  /-- A matrix with a label for each row and each column. -/
  | labelled (rows columns : List String) (cells : List (List Float))
  deriving Repr

/-- A matrix with labels, as many as it has rows and columns. -/
def CovarianceSource.ofTable (rows columns : List String) (cells : List (List Float)) :
    Except Fault CovarianceSource :=
  if cells.length = rows.length && cells.all fun row => row.length = columns.length then
    .ok (.labelled rows columns cells)
  else .error .unconvertible

/-- A square matrix of floating-point numbers. -/
structure Covariance where
  /-- The number of rows and of columns. -/
  size : Nat
  /-- The rows. -/
  cells : Vector (Vector Float size) size
  deriving Repr

namespace Covariance

/-- The entry in a row and a column. -/
def entry (m : Covariance) (i j : Fin m.size) : Float := m.cells[i][j]

/-- Whether a number is as good as another one: within a relative and an absolute tolerance. -/
def close (x y : Float) : Bool :=
  ((x - y).abs ≤ 1e-8 + 1e-5 * y.abs && Number.isFinite y) || x == y

/-- Whether a matrix is as good as its transpose. -/
def isSymmetric (m : Covariance) : Bool :=
  (List.finRange m.size).all fun i =>
    (List.finRange m.size).all fun j => close (m.entry i j) (m.entry j i)

/-- The sum of products of two lists, as far as the shorter one goes. -/
def dot (a b : List Float) : Float := (a.zip b).foldl (fun sum (x, y) => sum + x * y) 0.0

/-- The next row of a Cholesky factor: the entries left of the diagonal and the one on it, from a
row of the matrix and the rows above. Nothing if the matrix is not positive definite. -/
def nextRow (above : List (List Float)) (row : List Float) : Option (List Float) :=
  let left := (above.zip row).foldl (fun entries (other, cell) =>
    entries ++ [(cell - dot entries other) * (1.0 / other.getLastD 1.0)]) []
  let rest := row.getD left.length 0.0 - dot left left
  if rest ≤ 0.0 then none else some (left ++ [rest.sqrt])

/-- The rows of the Cholesky factor of a matrix, up to and including the diagonal. -/
def choleskyRows (rows : List (List Float)) : Option (List (List Float)) :=
  rows.foldlM (fun above row => do return above ++ [← nextRow above row]) []

/-- The lower triangular Cholesky factor of a matrix, with zeros above the diagonal. -/
def cholesky (m : Covariance) : Option (List (List Float)) := do
  let rows ← choleskyRows (m.cells.toList.map Vector.toList)
  return rows.map fun row => row ++ List.replicate (m.size - row.length) 0.0

/-- Whether two matrices have equal entries. -/
def same (a b : Covariance) : Bool :=
  a.size == b.size && (a.cells.toList.zip b.cells.toList).all fun (x, y) =>
    (x.toList.zip y.toList).all fun (u, v) => u == v

/-- The matrix with the given rows, if it has the given number of rows and of columns. -/
def ofRows? (size : Nat) (rows : List (List Float)) : Option Covariance := do
  let vectors ← rows.mapM fun row =>
    if h : row.length = size then some (⟨row.toArray, by simpa using h⟩ : Vector Float size)
    else none
  if h : vectors.length = size then some ⟨size, ⟨vectors.toArray, by simpa using h⟩⟩ else none

end Covariance

namespace CovarianceSource

/-- Groups a list into rows of the given length. -/
def rowsOf {α : Type} (length : Nat) : Nat → List α → List (List α)
  | 0, _ => []
  | count + 1, cells => cells.take length :: rowsOf length count (cells.drop length)

/-- The places at which a label stands. -/
def positions (labels : List String) (label : String) : List Nat :=
  (List.range labels.length).filter fun i => labels[i]? = some label

/-- The shape and the rows of a matrix for the given levels: a labelled one has its rows and columns
picked by the levels, and has to have all of them. -/
def rows (name : String) (levels : List String) :
    CovarianceSource → Except Failure (List Nat × List (List Float))
  | plain matrix => do
    let cells ← matrix.cells
    let numbers ← (cells.leaves.mapM Column.numberOfValue : Except Fault (List Float))
    match cells.shape with
    | [count, length] => return (cells.shape, rowsOf length count numbers)
    | shape => return (shape, [])
  | labelled index columns cells => do
    let missing := levels.filter fun level => !index.contains level || !columns.contains level
    if !missing.isEmpty then refuse (DataError.covarianceLevels name missing)
    let chosen := levels.flatMap (positions index)
    let kept := levels.flatMap (positions columns)
    let picked := chosen.map fun i => kept.map fun j => (cells.getD i []).getD j 0.0
    return ([chosen.length, kept.length], picked)

/-- The checked covariance matrix of a grouping factor in the order of its levels. -/
def check (name : String) (tree : TermTree) (source : CovarianceSource) :
    Except Failure Covariance := do
  let some first := (tree.groupsOf name).head? | refuse (DataError.covarianceUnknown name)
  let (shape, rows) ← source.rows name first.levels
  let size := first.levels.length
  let wrongShape : DataError := .covarianceShape name size (displayShape shape)
  if shape ≠ [size, size] then refuse wrongShape
  let some matrix := Covariance.ofRows? size rows | refuse wrongShape
  if !matrix.isSymmetric then refuse (DataError.covarianceSymmetry name)
  if matrix.cholesky.isNone then refuse (DataError.covarianceDefinite name)
  if (tree.groupsOf name).any Group.hasCorrelations then
    refuse (SpecificationError.correlatedCovariance name)
  return matrix

/-- The checked covariance matrices in the order of their factors' names. -/
def checkAll (sources : List (String × CovarianceSource)) (tree : TermTree) :
    Except Failure (List (String × Covariance)) :=
  (sources.mergeSort fun a b => a.1 ≤ b.1).mapM fun (name, source) => do
    return (name, ← source.check name tree)

end CovarianceSource

end Multilevel
