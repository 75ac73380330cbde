import Multilevel.Failure
import Multilevel.Text.Quoted
import Multilevel.Value.Basic

/-!
# Functions that give initial values

Such a function is called once per chain, with the number of the chain under the name `chain_id`
if it can take it, and with nothing otherwise. Before any call its parameter list is checked: no
parameter besides `chain_id` may need an argument. `binds` states the rule of binding itself,
whether a call gives every parameter what it needs and leaves no argument over.
-/
namespace Multilevel

/-- A function that gives the initial values of a chain. -/
structure InitFunction where
  /-- The name that it was defined under. -/
  name : String
  /-- Its parameters in order. -/
  parameters : List Parameter
  /-- What it returns. -/
  returns : Returns Value
  deriving Repr

/-- The name under which the number of a chain is handed to a function. -/
def chainParameter : String := "chain_id"

namespace Parameter

/-- Whether a parameter takes all further arguments. -/
def takesRest (p : Parameter) : Bool := p.kind == .restPositional || p.kind == .restNamed

/-- Whether a parameter can be given by the name of the chain's number. -/
def takesChain (p : Parameter) : Bool :=
  p.name == chainParameter && (p.kind == .plain || p.kind == .named)

/-- Whether a parameter needs an argument in every call. -/
def isNeeded (p : Parameter) : Bool := !p.optional && !p.takesRest

end Parameter

/-- A call of a function: with nothing, or with the number of a chain by name. -/
inductive InitCall where
  | bare
  | withChain
  deriving Repr, DecidableEq

/-- Whether a call gives the parameters what they need and leaves no argument over. -/
def InitCall.binds (parameters : List Parameter) : InitCall → Bool
  | bare => parameters.all fun p => !p.isNeeded
  | withChain =>
    (parameters.any fun p => p.takesChain || p.kind == .restNamed) &&
      parameters.all fun p => !p.isNeeded || p.takesChain

namespace InitFunction

/-- How a function is called: with the number of the chain if a parameter has its name or takes
all further names. -/
def call (f : InitFunction) : InitCall :=
  if f.parameters.any fun p => p.name == chainParameter || p.kind == .restNamed then .withChain
  else .bare

/-- The parameters besides the number of the chain that need an argument. -/
def needed (f : InitFunction) : List String :=
  (f.parameters.filter fun p => p.isNeeded && p.name != chainParameter).map Parameter.name

/-- Refuses a function with parameters that no call would serve. -/
def check (f : InitFunction) : Except InitError Unit :=
  if f.needed.isEmpty then .ok () else .error (.required (Text.quoted f.name) f.needed)

/-- What a function returns for a chain, counted from one. -/
def result (f : InitFunction) (chain : Nat) : Except Fault Value :=
  if f.call.binds f.parameters then
    match f.returns with
    | .always value => .ok value
    | .chainUnder key => .ok (.record [(key, .int chain)])
    | .listed values =>
      match values[chain - 1]? with
      | some value => .ok value
      | none => .error .outOfBounds
  else .error .unsupported

/-- The function that a value is, if it is one. -/
def ofValue? : Value → Option InitFunction
  | .function name parameters returns => some ⟨name, parameters, returns⟩
  | _ => none

end InitFunction

/-- Functions under the names that they were registered with. -/
abbrev InitRegistry := List (String × InitFunction)

namespace InitRegistry

/-- The names that stand for initial values of their own. -/
def reserved : List String := ["random", "0"]

/-- Registers a function under a name that is neither reserved nor taken. -/
def register (registry : InitRegistry) (name : String) (f : InitFunction) :
    Except InitError InitRegistry := do
  if reserved.contains name || (registry.lookup name).isSome then throw (.taken name)
  f.check
  return registry ++ [(name, f)]

/-- The registry without a name. -/
def unregister (registry : InitRegistry) (name : String) : InitRegistry :=
  registry.filter fun (other, _) => other != name

end InitRegistry

end Multilevel
