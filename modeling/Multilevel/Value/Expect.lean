import Multilevel.Failure
import Multilevel.Value.Quantity

/-!
# Expected kinds

An argument that arrives as a loose value has to be of the kind that is asked for. Where a text or
a record is asked for nothing else will do; where an argument may be left out nothing stands for
that.
-/
namespace Multilevel.Expect

/-- A text. -/
def text : Value → Except Fault String
  | .text s => .ok s
  | _ => .error .mistyped

/-- A truth value. -/
def truth : Value → Except Fault Bool
  | .bool b => .ok b
  | _ => .error .mistyped

/-- An integer. -/
def whole (value : Value) : Except Fault Whole :=
  match Whole.ofValue? value with
  | some w => .ok w
  | none => .error .mistyped

/-- A record. -/
def fields : Value → Except Fault (List (String × Value))
  | .record fields => .ok fields
  | _ => .error .mistyped

/-- A value of a kind, or nothing. -/
def optional {α : Type} (expect : Value → Except Fault α) : Value → Except Fault (Option α)
  | .null => .ok none
  | value => some <$> expect value

/-- The value under a name, of the kind expected; a standard one if there is none. -/
def field {α : Type} (given : List (String × Value)) (name : String) (standard : α)
    (expect : Value → Except Fault α) : Except Fault α :=
  match given.lookup name with
  | some value => expect value
  | none => .ok standard

/-- Refuses names that are not known. -/
def knownNames (known : List String) (given : List (String × Value)) : Except Fault Unit :=
  if given.all fun (name, _) => known.contains name then .ok () else .error .unsupported

end Multilevel.Expect
