import Multilevel.Data.Column

/-!
# Values without a kind

Values that come without a kind are stored in a column of the narrowest kind that holds all of
them. Integers stay integers as long as one kind of 64-bit words holds all of them; they become
floating-point numbers beside a number that is one and beside a missing value; texts may be
missing; whatever else meets makes a mixed column.
-/
namespace Multilevel.Column

variable {rows : Nat}

/-- What the integers of a list have shown so far. -/
structure Sighting where
  /-- Whether a value was missing. -/
  missing : Bool := false
  /-- Whether an integer was negative. -/
  negative : Bool := false
  /-- Whether a 64-bit word holds an integer only without a sign. -/
  high : Bool := false

/-- How the integers of a list can be stored together. -/
inductive Storage where
  /-- In one kind of number. -/
  | common
  /-- In none, since no kind of 64-bit words holds all of them. -/
  | loose
  /-- Not at all, since one has no floating-point number near it. -/
  | tooLarge
  deriving Repr, DecidableEq

/-- How the integers of a list can be stored together. After a missing value they are stored as
floating-point numbers, so their words do not matter. The first integer that settles the matter ends
the look, and so does a value that is no number. -/
def storage (seen : Sighting) : List Value → Storage
  | [] => .common
  | .null :: rest => storage { seen with missing := true } rest
  | .bool _ :: rest | .float _ :: rest => storage seen rest
  | .int n :: rest =>
    if !Number.isRepresentable n then .tooLarge
    else if seen.missing then storage seen rest
    else
      let negative := seen.negative || n < 0
      let high := seen.high || Number.isHighWord n
      if (negative && high) || !(Number.isWord n || Number.isHighWord n) then .loose
      else storage ⟨false, negative, high⟩ rest
  | _ :: _ => .common

/-- Whether a value is nothing. -/
def isNothing : Value → Bool
  | .null => true
  | _ => false

/-- Whether a value is a text. -/
def isText : Value → Bool
  | .text _ => true
  | _ => false

/-- The integers that values are, if all are. -/
def integers? (values : Vector Value rows) : Option (Vector Int rows) :=
  values.mapM fun value => match value with
    | .int n => some n
    | _ => none

/-- The truth values that values are, if all are. -/
def truths? (values : Vector Value rows) : Option (Vector Bool rows) :=
  values.mapM fun value => match value with
    | .bool b => some b
    | _ => none

/-- The numbers that values are, if each is one or nothing and not all are nothing. -/
def reals? (values : Vector Value rows) : Option (Vector Float rows) :=
  if values.toList.all isNothing then none
  else values.mapM fun value => match value with
    | .int n => some (Number.ofInt n)
    | .float x => some x
    | .null => some (0.0 / 0.0)
    | _ => none

/-- The texts that values are, if each is one or missing and not all are missing. -/
def texts? (values : Vector Value rows) : Option (Vector (Option String) rows) :=
  if !values.toList.any isText then none
  else values.mapM fun value => match value with
    | .text s => some (some s)
    | value => if missingValue value then some none else none

/-- The column of the narrowest kind that holds the values. -/
def inferred (values : Vector Value rows) : Column rows :=
  if rows = 0 || storage {} values.toList ≠ .common then mixed values
  else match integers? values, truths? values, reals? values, texts? values with
    | some cells, _, _, _ => if cells.any Number.isHighWord then unsigned cells else int cells
    | _, some cells, _, _ => bool cells
    | _, _, some cells, _ => float cells
    | _, _, _, some cells => text cells
    | _, _, _, _ => mixed values

/-- The column of values, none of which may be an integer far beyond every number of a column. -/
def ofValues (values : Vector Value rows) : Except Fault (Column rows) :=
  if storage {} values.toList = .tooLarge then .error .overflow else .ok (inferred values)

end Multilevel.Column
