import Multilevel.Value.Basic
import Multilevel.Number.Layout
import Multilevel.Text.Quoted

/-!
# Displayed values

The form in which messages and factor levels show a value. Texts inside of a value are quoted,
lists stand in brackets and records in braces. A level shows a text as it is.
-/
namespace Multilevel.Value

mutual

/-- The displayed form of a value. -/
def display : Value → String
  | null => "None"
  | bool b => if b then "True" else "False"
  | int n => toString n
  | float x => Number.display x
  | text s => Text.quoted s
  | list items => "[" ++ ", ".intercalate (displayItems items) ++ "]"
  | record fields => "\x7b" ++ ", ".intercalate (displayFields fields) ++ "\x7d"
  | function name _ _ => "<function " ++ name ++ ">"

/-- The displayed forms of the values of a list. -/
def displayItems : List Value → List String
  | [] => []
  | item :: rest => display item :: displayItems rest

/-- The displayed forms of the fields of a record. -/
def displayFields : List (String × Value) → List String
  | [] => []
  | (key, item) :: rest => (Text.quoted key ++ ": " ++ display item) :: displayFields rest

end

mutual

/-- Whether a value has a displayed form: none of its integers has too many digits. -/
def isDisplayable : Value → Bool
  | int n => Number.isWritable n
  | list items => areDisplayable items
  | record fields => fieldsAreDisplayable fields
  | _ => true

/-- Whether the values of a list have displayed forms. -/
def areDisplayable : List Value → Bool
  | [] => true
  | item :: rest => isDisplayable item && areDisplayable rest

/-- Whether the fields of a record have displayed forms. -/
def fieldsAreDisplayable : List (String × Value) → Bool
  | [] => true
  | (_, item) :: rest => isDisplayable item && fieldsAreDisplayable rest

end

/-- The level that a value stands for: a text itself, any other value in its displayed form. -/
def level : Value → String
  | text s => s
  | value => display value

end Multilevel.Value
