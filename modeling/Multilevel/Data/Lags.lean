import Multilevel.Data.Order
import Multilevel.Value.Quantity

/-!
# Autoregressive residuals

Residuals of observations of one series are fed back into the predictor of the observations that
follow them, up to the order of the process. Observations are ordered by series and by time, and
each passes on as many residuals as its successor can look back on.
-/
namespace Multilevel

/-- An autoregressive structure of residuals. -/
structure Autocorrelation where
  /-- The order of the process, at least one. -/
  order : Whole
  /-- The column that orders the observations, if not their own order. -/
  time : Option String
  /-- The column that tells the series apart, if there is more than one. -/
  group : Option String
  /-- The order is positive. -/
  positive : 1 ≤ order.toInt

namespace Autocorrelation

/-- An autoregressive structure, whose order must be positive. -/
def make (order : Whole) (time group : Option String) :
    Except SpecificationError Autocorrelation :=
  if positive : 1 ≤ order.toInt then .ok ⟨order, time, group, positive⟩
  else .error (.order order.text)

/-- The columns that a structure depends on. -/
def names (a : Autocorrelation) : List String := a.time.toList ++ a.group.toList

/-- The text of a structure. -/
def text (a : Autocorrelation) : String :=
  let name (column : Option String) := column.getD "None"
  s!"ar(p={a.order.text}, time={name a.time}, group={name a.group})"

/-- Whether two structures have the same order and the same columns. -/
def same (a b : Autocorrelation) : Bool :=
  a.order.toInt == b.order.toInt && a.time == b.time && a.group == b.group

/-- The columns that rows are ordered by. -/
def keys (a : Autocorrelation) : List String := a.group.toList ++ a.time.toList

/-- A table with its rows in the order of the structure. -/
def orderRows (a : Autocorrelation) (frame : Frame) : Except Fault Frame :=
  if a.keys.isEmpty then .ok frame else frame.sortBy a.keys

/-- How many residuals each observation passes on, given the number of observations of its series up
to and including the first one. -/
def lagsFrom {α : Type} [DecidableEq α] (limit : Nat) : Nat → List α → List Nat
  | _, [] => []
  | _, [_] => [0]
  | position, a :: b :: rest =>
    if a = b then min limit position :: lagsFrom limit (position + 1) (b :: rest)
    else 0 :: lagsFrom limit 1 (b :: rest)

/-- The series that each row belongs to. Rows without a series form one of their own; a series has
no parts. -/
def series (a : Autocorrelation) (frame : Frame) : Except Fault (List (Option Key)) := do
  match a.group with
  | none => return List.replicate frame.rows none
  | some name =>
    let column ← frame.column name
    if column.hasCompound then throw .unsupported
    return (List.finRange frame.rows).map column.key?

/-- How many residuals each observation of an ordered table passes on to its successor. -/
def lags (a : Autocorrelation) (frame : Frame) : Except Fault (List Nat) := do
  return lagsFrom a.order.toInt.toNat 1 (← a.series frame)

end Autocorrelation

end Multilevel
