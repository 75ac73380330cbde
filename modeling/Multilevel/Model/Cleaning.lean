import Multilevel.Data.Lags
import Multilevel.Data.Factor
import Multilevel.Family.Basic
import Multilevel.Formula.Basic

/-!
# Cleaned data

A model sees the columns that it needs and the rows that are complete in them. Grouping factors
and predictors that are no numbers become factors, the response must suit the family, and with
autoregressive residuals the rows are put in the order of the series and of time.
-/
namespace Multilevel

/-- Checks a formula against the data, the family of the response and the structure of the
residuals. -/
def validateFormula (formula : Formula) (frame : Frame) (family : Family)
    (autocorrelation : Option Autocorrelation) : Except Failure Unit := do
  let needed := formula.names ++
    (match autocorrelation with
      | some a => a.names
      | none => [])
  let missing := needed.eraseDups.filter fun name => !frame.names.contains name
  if !missing.isEmpty then refuse (FormulaError.missing missing)
  if formula.predictors.contains formula.response then
    refuse (FormulaError.predictor formula.response)
  let distribution := family.distribution
  if distribution.responseKind = .trials && formula.trials.isNone then
    refuse (FormulaError.trialsNeeded distribution.name formula.response)
  if distribution.responseKind ≠ .trials && formula.trials.isSome then
    refuse (FormulaError.trialsRefused distribution.name)
  let suited := (distribution = .gaussian || distribution = .student) && family.link = .identity
  if autocorrelation.isSome && !suited then refuse SpecificationError.autocorrelation

namespace Cleaning

/-- The columns that a model needs, each once. -/
def neededColumns (formula : Formula) (autocorrelation : Option Autocorrelation) : List String :=
  (formula.names ++
    (match autocorrelation with
      | some a => a.names
      | none => [])).eraseDups

/-- The columns that are factors whatever they hold. -/
def groupingColumns (formula : Formula) (autocorrelation : Option Autocorrelation) : List String :=
  formula.groups ++
    (match autocorrelation with
      | some a => a.group.toList
      | none => [])

/-- The columns as a model takes them: factors where they group observations or hold no numbers.
The response and the number of trials stay as they are. -/
def convertColumns {rows : Nat} (formula : Formula) (grouping : List String)
    (columns : List (String × Column rows)) : Except Fault (List (String × Column rows)) :=
  columns.mapM fun (name, column) => do
    if name = formula.response || some name = formula.trials then return (name, column)
    else if grouping.contains name || column.isCategorical then
      return (name, ← column.asFactor)
    else return (name, column)

/-- Truth values as zeros and ones. -/
def truthsAsIntegers {rows : Nat} : Column rows → Column rows
  | .bool cells => .int (cells.map fun b => if b then 1 else 0)
  | column => column

/-- Numbers in 64-bit words. -/
def asWords {rows : Nat} (numbers : Vector Float rows) : Column rows :=
  .int (numbers.map Number.toInt64)

/-- Checks the numbers of trials against the numbers of successes. -/
def checkTrials {rows : Nat} (name family : String) (successes trials : Vector Float rows) :
    Except DataError Unit := do
  let isCount (x : Float) : Bool := (Number.isInteger x || x == 1.0 / 0.0) && !(x < 1.0)
  if !trials.toList.all isCount then throw (.trials name)
  if (successes.toList.zip trials.toList).any fun (y, n) => y < 0.0 || n < y then
    throw (.outsideTrials name family)

/-- The table with a response that suits the family. Counts are stored as integers. -/
def checkResponse (frame : Frame) (formula : Formula) (family : Family) :
    Except Failure Frame := do
  let kind := family.distribution.responseKind
  let familyName := family.distribution.name
  let name := formula.response
  let frame := if kind = .binary then frame.adjust name truthsAsIntegers else frame
  let column ← frame.column name
  if !column.isNumeric then refuse (DataError.notNumeric name)
  let values ← column.numbers
  if !values.toList.all Number.isFinite then refuse (DataError.notFinite name)
  if kind = .real then return frame
  if !values.toList.all Number.isInteger then refuse (DataError.fractional familyName name)
  let stored := frame.adjust name fun _ => asWords values
  match kind with
  | .real => return frame
  | .count =>
    if values.toList.any (· < 0.0) then refuse (DataError.negative familyName)
    return stored
  | .binary =>
    if !values.toList.all fun x => x == 0.0 || x == 1.0 then
      refuse (DataError.notBinary familyName)
    return stored
  | .trials =>
    let some trialsName := formula.trials | refuse Fault.unknownKey
    let trials ← (← stored.column trialsName).numbers
    checkTrials trialsName familyName values trials
    return ⟨stored.rows, (stored.adjust trialsName fun _ => asWords trials).columns⟩

/-- The table that a model sees. -/
def update (frame : Frame) (formula : Formula) (family : Family)
    (autocorrelation : Option Autocorrelation) (knots : List String) : Reported Frame := do
  let needed ← frame.select (neededColumns formula autocorrelation)
  let kept := needed.complete
  if kept.rows < needed.rows then Reported.warn (.droppedRows (needed.rows - kept.rows))
  if kept.rows = 0 then refuse DataError.noRows
  let columns ← convertColumns formula (groupingColumns formula autocorrelation) kept.columns
  let checked ← checkResponse ⟨kept.rows, columns⟩ formula family
  if let some name := knots.find? fun name => !formula.names.contains name then
    refuse (DataError.knotsUnknown name)
  match autocorrelation with
  | some a => a.orderRows checked
  | none => return checked

end Cleaning

end Multilevel
