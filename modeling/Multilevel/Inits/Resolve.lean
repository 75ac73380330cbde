import Multilevel.Inits.Function
import Multilevel.Number.Reader
import Multilevel.Value.Quantity

/-!
# Initial values

Initial values are given in several forms, all of which are resolved once for the chains of a
run: into nothing (the engine draws them), one number that all chains share, or one record of
values per chain.
-/
namespace Multilevel

/-- Values of variables under their names. -/
abbrev InitRecord := List (String × Value)

/-- Resolved initial values. -/
inductive Inits where
  /-- The engine draws the initial values. -/
  | random
  /-- All chains draw from the range of this size around zero. -/
  | shared (radius : Quantity)
  /-- Each chain has its own. -/
  | perChain (records : List InitRecord)
  deriving Repr

/-- The initial values of one chain. -/
inductive ChainInits where
  | random
  | shared (radius : Quantity)
  | own (record : InitRecord)
  deriving Repr

namespace Inits

/-- The initial values as a value. -/
def value : Inits → Value
  | random => .null
  | shared radius => radius.value
  | perChain records => .list (records.map .record)

/-- The initial values of the chain at a position, which must exist if each chain has its own. -/
def ofChain (inits : Inits) (position : Nat) : Except Fault ChainInits :=
  match inits with
  | random => .ok .random
  | shared radius => .ok (.shared radius)
  | perChain records =>
    match records[position]? with
    | some record => .ok (.own record)
    | none => .error .outOfBounds

end Inits

namespace ChainInits

/-- The initial values as a value. -/
def value : ChainInits → Value
  | random => .null
  | shared radius => radius.value
  | own record => .record record

/-- The initial values for a run of this chain alone. -/
def single : ChainInits → Inits
  | random => .random
  | shared radius => .shared radius
  | own record => .perChain [record]

end ChainInits

/-- Initial values as a caller gives them. -/
inductive InitChoice where
  | unset
  /-- A word, a number in letters or the name of a registered function. -/
  | named (text : String)
  | truth
  | radius (q : Quantity)
  | function (f : InitFunction)
  /-- Values of the chains, the first of which is a record. -/
  | listed (items : List Value)
  deriving Repr

namespace InitChoice

/-- The choice that a value is, if it is of a kind that initial values may have. -/
def ofValue? : Value → Option InitChoice
  | .null => some unset
  | .text s => some (named s)
  | .bool _ => some truth
  | .int n => some (radius (.whole (.int n)))
  | .float x => some (radius (.real x))
  | .list [] => some (listed [])
  | .list (.record first :: rest) => some (listed (.record first :: rest))
  | .list _ => none
  | .record _ => none
  | .function name parameters returns => some (function ⟨name, parameters, returns⟩)

/-- The record that a value given for a chain is. -/
def recordOf (value : Value) (chain : Nat) : Except InitError InitRecord :=
  match value with
  | .record fields => .ok fields
  | other => .error (.notRecord chain other.kindName)

/-- The numbers of the chains of a run. -/
def chainNumbers (chains : Whole) : List Nat := (List.range chains.toInt.toNat).map (· + 1)

/-- The initial values that a number gives, which may not be negative. -/
def ofRadius (q : Quantity) : Except InitError Inits :=
  if q.isBelow 0 then .error (.negative q.text) else .ok (.shared q)

/-- The records that a function gives for a number of chains from one on. The first chain that it
fails for ends the work. -/
def recordsFrom (f : InitFunction) (chain : Nat) : Nat → Except Failure (List InitRecord)
  | 0 => return []
  | more + 1 => do
    let value ← f.result chain
    let record ← (recordOf value chain : Except InitError InitRecord)
    return record :: (← recordsFrom f (chain + 1) more)

/-- The initial values that a function gives for each chain. -/
def ofFunction (f : InitFunction) (chains : Whole) : Except Failure Inits := do
  f.check
  return .perChain (← recordsFrom f 1 chains.toInt.toNat)

/-- The initial values that a list gives, one item for each chain. -/
def ofList (items : List Value) (chains : Whole) : Except InitError Inits := do
  if (items.length : Int) ≠ chains.toInt then throw (.count items.length chains.text)
  let records ← items.zipIdx.mapM fun (item, k) => recordOf item (k + 1)
  return .perChain records

/-- The initial values that a text stands for. -/
def ofText (registry : InitRegistry) (text : String) (chains : Whole) : Except Failure Inits :=
  if text = "random" then return .random
  else if text = "0" then return .shared (.whole 0)
  else match registry.lookup text with
    | some f => ofFunction f chains
    | none =>
      match Number.float? text with
      | some x => (ofRadius (.real x) : Except InitError Inits)
      | none => refuse (InitError.unknown text (registry.map Prod.fst))

/-- The initial values that a choice gives for a number of chains. -/
def resolve (registry : InitRegistry) (choice : InitChoice) (chains : Whole) :
    Except Failure Inits :=
  match choice with
  | unset => return .random
  | named text => ofText registry text chains
  | truth => refuse InitError.truth
  | radius q => (ofRadius q : Except InitError Inits)
  | function f => ofFunction f chains
  | listed items => (ofList items chains : Except InitError Inits)

end InitChoice

end Multilevel
