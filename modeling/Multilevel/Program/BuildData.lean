import Multilevel.Entries
import Multilevel.Program.Basic

/-!
# Data of a program

The values of the variables that a program's data block declares, in the order of their
declarations, followed by the values of the user's fragments.
-/
namespace Multilevel

/-- The value of a data variable. -/
inductive Datum where
  | whole (n : Whole)
  | ints (values : List Int)
  | reals (values : List Float)
  /-- The rows of a matrix. -/
  | matrix (rows : List (List Float))
  /-- A value of the user. -/
  | loose (value : Value)
  deriving Repr

namespace Datum

/-- A natural number as a datum. -/
def ofNat (n : Nat) : Datum := whole (.int n)

/-- The datum as a value. -/
def value : Datum → Value
  | whole n => n.value
  | ints values => .list (values.map .int)
  | reals values => .list (values.map .float)
  | matrix rows => .list (rows.map fun row => .list (row.map .float))
  | loose v => v

/-- Whether two data are the same array. -/
def same (a b : Datum) : Except Fault Bool := a.value.sameArray b.value

end Datum

/-- The data of a program under the names of their variables. -/
abbrev BuildData := List (String × Datum)

namespace BuildData

/-- A design matrix without its zeros: row by row, the entries that are not zero with their columns,
counted from one, and where each row starts among them. -/
structure SparseRows where
  /-- The entries that are not zero. -/
  entries : List Float
  /-- Their columns. -/
  columns : List Nat
  /-- The place of the first entry of each row, and the place after the last entry. -/
  starts : List Nat
  deriving Repr

/-- The entries of a row that are not zero, with their columns. -/
def nonzero (row : List Float) : List (Float × Nat) :=
  row.zipIdx.filterMap fun (x, k) => if x == 0.0 then none else some (x, k + 1)

/-- The places at which rows of the given lengths start, the first one given. -/
def startsFrom (first : Nat) : List Nat → List Nat
  | [] => [first]
  | length :: rest => first :: startsFrom (first + length) rest

/-- The rows of a matrix without their zeros. -/
def sparse (rows : List (List Float)) : SparseRows :=
  let kept := rows.map nonzero
  ⟨kept.flatMap fun row => row.map Prod.fst, kept.flatMap fun row => row.map Prod.snd,
    startsFrom 1 (kept.map List.length)⟩

/-- The rows of a matrix given by its columns. -/
def rowsOf {rows : Nat} (columns : List (DesignColumn Float rows)) : List (List Float) :=
  (List.finRange rows).map fun row => columns.map fun column => column.cells.get row

/-- The integers of a column; none for a column of another kind. -/
def integers {rows : Nat} : Column rows → List Int
  | .int cells => cells.toList
  | _ => []

/-- The response as the distribution takes it. -/
def outcome {rows : Nat} (kind : ResponseKind) (response : Column rows) : Except Fault Datum :=
  if kind = .real then return .reals (← response.numbers).toList
  else return .ints (integers response)

/-- The number of trials, if there is one. -/
def trialsData (s : Specification) : Except Fault (List (Variable × Datum)) :=
  match s.formula.trials with
  | none => return []
  | some name => return [(.trials, .ints (integers (← s.data.column name)))]

/-- The response and the number of trials. -/
def responseData (s : Specification) : Except Fault (List (Variable × Datum)) := do
  let response ← s.data.column s.formula.response
  let outcome ← outcome s.family.distribution.responseKind response
  return (.response, outcome) :: (← trialsData s)

/-- The design of the coefficients shared by all observations. -/
def designData (s : Specification) : Except Failure (List (Variable × Datum)) := do
  let columns ← Design.matrix s.data.predictors s.formula.intercept s.formula.terms
  let rows := rowsOf columns
  let design : List (Variable × Datum) :=
    if s.sparse && !columns.isEmpty then
      let packed := sparse rows
      [(.nonzeroCount, .ofNat packed.entries.length), (.nonzeros, .reals packed.entries),
        (.nonzeroColumns, .ints (packed.columns.map Int.ofNat)),
        (.rowStarts, .ints (packed.starts.map Int.ofNat))]
    else [(.design, .matrix rows)]
  return (.coefficients, .ofNat columns.length) :: design

/-- The data of a group-level term. -/
def groupData (s : Specification) (group : Group) : Except Failure (List (Variable × Datum)) := do
  let i := group.id
  let columns ← Design.groupMatrix s.data.predictors group.term
  let index ← s.data.groupIndex group.factor
  let effects : List (Variable × Datum) := columns.zipIdx.map fun (column, k) =>
    (.effectDesign i (k + 1), .reals column.cells.toList)
  let covariance : List (Variable × Datum) :=
    if group.hasCovariance then
      match (s.covariances.lookup group.factor).bind Covariance.cholesky with
      | some rows => [(.covarianceFactor i, .matrix rows)]
      | none => []
    else []
  return [(.levelCount i, .ofNat group.levels.length), (.effectCount i, .ofNat group.size),
    (.levelIndex i, .ints (index.map Int.ofNat))] ++ effects ++ covariance

/-- The data of the residuals. -/
def lagData (s : Specification) : Except Failure (List (Variable × Datum)) := do
  match s.autocorrelation with
  | none => return []
  | some a =>
    let lags ← a.lags s.data
    return [(.order, .whole a.order), (.lags, .ints (lags.map Int.ofNat))]

/-- The data of a variable's knots. -/
def knotData (name : String) (values : List Float) : List (Variable × Datum) :=
  let suffix := nameSuffix name
  [(.knotCount suffix, .ofNat values.length), (.knots suffix, .reals values)]

/-- The values of the generated data variables in the order of their declarations. -/
def generated (s : Specification) : Except Failure (List (Variable × Datum)) := do
  let response ← responseData s
  let design ← designData s
  let groups ← s.terms.groups.mapM (groupData s)
  let lags ← lagData s
  return (.observations, .ofNat s.data.rows) :: response ++ design ++ groups.flatten ++ lags ++
    (s.knots.flatMap fun (name, values) => knotData name values) ++
    [(.priorOnly, .ofNat (if s.samplePrior = .only then 1 else 0))]

/-- Adds the values of the user, none of which may have the name of a generated variable. -/
def addLoose : List (String × Value) → BuildData → Except SpecificationError BuildData
  | [], data => .ok data
  | (name, value) :: rest, data =>
    if (data.lookup name).isSome then .error (.clash name)
    else addLoose rest (data ++ [(name, .loose value)])

/-- The values of variables under their names. -/
def ofValues (values : List (Variable × Datum)) : BuildData :=
  Entries.putAll [] (values.map fun (v, datum) => (v.name, datum))

/-- The data of the program of a specification. -/
def ofSpecification (s : Specification) : Except Failure BuildData := do
  let values ← generated s
  addLoose s.fragments.data (ofValues values)

/-- Whether the data under each name are the same array. -/
def sameValues : BuildData → BuildData → Except Fault Bool
  | (_, a) :: as, (_, b) :: bs => do if ← a.same b then sameValues as bs else return false
  | _, _ => .ok true

/-- Whether two data sets hold the same arrays under the same names in the same order. -/
def same (a b : BuildData) : Except Fault Bool :=
  if a.map Prod.fst = b.map Prod.fst then sameValues a b else .ok false

end BuildData

end Multilevel
