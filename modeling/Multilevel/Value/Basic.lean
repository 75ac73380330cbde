/-!
# Loose values

Arguments whose kind is not fixed (initial values, options, values of code fragments, settings of
the engine) are trees of nothing, truth values, integers, floating-point numbers, texts, lists
and records. A function that gives initial values is a value too: what can be known of it is its
parameter list and what it returns for each chain.
-/
namespace Multilevel

/-- How a parameter of a function takes its argument. -/
inductive ParameterKind where
  /-- By position alone. -/
  | positional
  /-- By position or by name. -/
  | plain
  /-- All further arguments by position. -/
  | restPositional
  /-- By name alone. -/
  | named
  /-- All further arguments by name. -/
  | restNamed
  deriving Repr, DecidableEq, Inhabited

/-- A parameter of a function. -/
structure Parameter where
  /-- Its name. -/
  name : String
  /-- How it takes its argument. -/
  kind : ParameterKind
  /-- Whether it may be left out because it has a default. -/
  optional : Bool
  deriving Repr, DecidableEq, Inhabited

/-- What a function returns for a chain. -/
inductive Returns (α : Type) where
  /-- The same value for every chain. -/
  | always (value : α)
  /-- The number of the chain, under a key. -/
  | chainUnder (key : String)
  /-- The value listed at the position of the chain. -/
  | listed (values : List α)
  deriving Repr, Inhabited

/-- A value of any kind. The fields of a record keep their order. -/
inductive Value where
  | null
  | bool (b : Bool)
  | int (n : Int)
  | float (x : Float)
  | text (s : String)
  | list (items : List Value)
  | record (fields : List (String × Value))
  | function (name : String) (parameters : List Parameter) (returns : Returns Value)
  deriving Repr, Inhabited

namespace Value

/-- The name of a value's kind, as messages give it. -/
def kindName : Value → String
  | null => "NoneType"
  | bool _ => "bool"
  | int _ => "int"
  | float _ => "float"
  | text _ => "str"
  | list _ => "list"
  | record _ => "dict"
  | function .. => "function"

/-- Whether a value counts as true: nothing, false, zero and whatever is empty do not. -/
def truthy : Value → Bool
  | null => false
  | bool b => b
  | int n => n != 0
  | float x => x != 0.0
  | text s => !s.isEmpty
  | list items => !items.isEmpty
  | record fields => !fields.isEmpty
  | function .. => true

/-- Whether a value has parts, so that it cannot be looked up. -/
def isCompound : Value → Bool
  | list _ | record _ => true
  | _ => false

/-- The value under a key of a record. -/
def field? : Value → String → Option Value
  | record fields, key => fields.lookup key
  | _, _ => none

end Value

end Multilevel
