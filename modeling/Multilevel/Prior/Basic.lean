import Multilevel.Failure
import Multilevel.Text.Blank

/-!
# Priors

A prior is the call of a distribution, attached to a slot: a class of parameters, a coefficient of
that class and a grouping factor, of which the last two may be left open. An empty text stands for
no prior. Of a list of priors, `lookup` finds the one in effect for a slot.
-/
namespace Multilevel

/-- A place that a prior can be attached to. -/
structure Slot where
  /-- The class of parameters. -/
  className : String
  /-- The coefficient, or nothing for the whole class. -/
  coefficient : String := ""
  /-- The grouping factor, or nothing for all of them. -/
  group : String := ""
  deriving Repr, DecidableEq, Inhabited

/-- A prior distribution attached to a slot. -/
structure Prior where
  /-- The call of a distribution, or nothing. -/
  text : String
  /-- The slot. -/
  slot : Slot
  deriving Repr, DecidableEq, Inhabited

/-- The call of a distribution. -/
structure DistributionCall where
  /-- The distribution. -/
  name : String
  /-- Its arguments, as they are written. -/
  arguments : String
  deriving Repr, DecidableEq

namespace Prior

open Text

/-- Whether a character may start the name of a distribution. -/
def startsCall (c : Char) : Bool := c.isAlpha || c == '_'

/-- Whether a character may continue the name of a distribution. -/
def continuesCall (c : Char) : Bool := c.isAlphanum || c == '_'

/-- The call that characters without blanks around them spell: a name, and arguments between the
first parenthesis and the one at the end. The arguments stand on one line. -/
def callOfChars? (chars : List Char) : Option DistributionCall :=
  match chars with
  | [] => none
  | c :: rest =>
    if startsCall c then
      let name := c :: rest.takeWhile continuesCall
      match stripStart (rest.dropWhile continuesCall) with
      | '(' :: body =>
        let arguments := body.dropLast
        if body.getLast? = some ')' && !arguments.contains '\n' then
          some ⟨String.ofList name, String.ofList (stripBoth arguments)⟩
        else none
      | _ => none
    else none

/-- The call of a distribution that a prior is, if it is one. -/
def call? (prior : Prior) : Option DistributionCall := callOfChars? (stripBoth prior.text.toList)

/-- The distribution of a prior; nothing if there is none. -/
def distribution (prior : Prior) : String :=
  match prior.call? with
  | some call => call.name
  | none => ""

/-- The arguments of a prior's distribution; nothing if there is none. -/
def arguments (prior : Prior) : String :=
  match prior.call? with
  | some call => call.arguments
  | none => ""

/-- Checks a prior by itself: its class is known, its text is blank or the call of a distribution,
and the distribution of correlation matrices stands for those alone. -/
def validate (prior : Prior) : Except PriorError Unit := do
  let className := prior.slot.className
  if !parameterClasses.contains className then throw (.unknownClass className)
  let text := stripBoth prior.text.toList
  if !text.isEmpty then
    if prior.call?.isNone then throw (.malformed prior.text)
    if (className == "cor") != (prior.distribution == "lkj") then
      throw (.correlation prior.text className)

/-- A prior with its text stripped of blanks, checked. -/
def set (text : String) (slot : Slot) : Except PriorError Prior := do
  let prior : Prior := ⟨strip text, slot⟩
  prior.validate
  return prior

end Prior

namespace Priors

/-- The first prior of exactly the given slot. -/
def get? (priors : List Prior) (slot : Slot) : Option Prior :=
  priors.find? fun prior => prior.slot = slot

/-- The slots that a slot inherits from, itself first: the grouping factor's and the class's. -/
def inherited (slot : Slot) : List Slot :=
  [slot, ⟨slot.className, "", slot.group⟩, ⟨slot.className, "", ""⟩]

/-- The prior in effect for a slot: the first one that is not empty among those of the slot and of
the slots it inherits from. -/
def lookup (priors : List Prior) (slot : Slot) : Prior :=
  match (inherited slot).findSome? fun s => (get? priors s).filter fun p => !p.text.isEmpty with
  | some prior => prior
  | none => ⟨"", slot⟩

end Priors

/-- Priors as a caller gives them: none, a single one, a finished list, or a list whose items need
not be priors; of such an item its kind is known. -/
inductive PriorArgument where
  | none
  | one (prior : Prior)
  | all (priors : List Prior)
  | items (items : List (Prior ⊕ String))
  deriving Repr

namespace PriorArgument

/-- The priors of a list of items, all of which must be priors. -/
def ofItems : List (Prior ⊕ String) → Except PriorError (List Prior)
  | [] => .ok []
  | .inl prior :: rest => do return prior :: (← ofItems rest)
  | .inr kind :: _ => .error (.notPrior kind)

/-- The priors that a caller gives. -/
def priors : PriorArgument → Except PriorError (List Prior)
  | none => .ok []
  | one prior => .ok [prior]
  | all priors => .ok priors
  | items given => ofItems given

end PriorArgument

end Multilevel
