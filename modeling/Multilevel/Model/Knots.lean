import Multilevel.Failure
import Multilevel.Formula.Basic
import Multilevel.Number.Binary64

/-!
# Knots

Knots are finite numbers that belong to a variable of the formula. They join the data of the
model in ascending order, under the names of their variables in alphabetical order.
-/
namespace Multilevel

/-- Checks the knots of one variable and sorts them. -/
def checkKnots (formula : Formula) (name : String) (values : List Float) :
    Except DataError (List Float) := do
  if !formula.names.contains name then throw (.knotsUnknown name)
  if values.isEmpty || !values.all Number.isFinite then throw (.knotsNotFinite name)
  return values.mergeSort fun x y => x ≤ y

/-- Checks the knots of all variables and sorts them by variable. -/
def checkAllKnots (formula : Formula) (knots : List (String × List Float)) :
    Except DataError (List (String × List Float)) :=
  (knots.mergeSort fun a b => a.1 ≤ b.1).mapM fun (name, values) => do
    return (name, ← checkKnots formula name values)

end Multilevel
