import Multilevel.Data.Column
import Multilevel.Draws.Dataset

/-!
# Draws of a run

The draws of one chain have a dimension of draws, those of a whole run a dimension of chains
before it. Results of chains that ran on their own are merged in the order of their numbers;
whether they can be merged depends on the numbers and on the names and dimensions of the
variables alone.
-/
namespace Multilevel

/-- The draws of one chain. -/
structure ChainResult (α : Type) where
  /-- The number of the chain. -/
  chain : Int
  draws : Dataset α
  /-- What the sampler says of each iteration. -/
  stats : Dataset α
  deriving Repr, DecidableEq

/-- The draws of all chains of a run. -/
structure Posterior (α : Type) where
  /-- The numbers of the chains in the order of their places. -/
  chains : List Int
  draws : Dataset α
  /-- What the sampler says of each iteration. -/
  stats : Dataset α
  deriving Repr, DecidableEq

namespace Posterior

variable {α : Type}

/-- The number of draws of each chain. -/
def drawCount (p : Posterior α) : Except Fault Nat :=
  match p.draws.sizeOf? drawDim with
  | some count => .ok count
  | none => .error .unknownKey

/-- The part of a dataset that belongs to the chain at a place. -/
def chainPart (d : Dataset α) (position : Nat) : Except Fault (Dataset α) := do
  let arrays ← d.arrays.mapM fun (name, a) => return (name, ← a.pick chainDim position)
  return { d with arrays }

/-- The draws of one chain. -/
def chain (p : Posterior α) (number : Int) : Except Fault (ChainResult α) :=
  match p.chains.idxOf? number with
  | none => .error .unknownKey
  | some position =>
    return ⟨number, ← chainPart p.draws position, ← chainPart p.stats position⟩

/-- The draws without some variables. -/
def without (p : Posterior α) (names : List String) : Posterior α :=
  { p with draws := p.draws.without names }

/-- Whether two runs gave the same draws. -/
def same (a b : Posterior Float) : Bool :=
  a.chains == b.chains && a.draws.same Column.sameNumber b.draws &&
    a.stats.same Column.sameNumber b.stats

end Posterior

/-- The results of chains that ran on their own. -/
abbrev ChainResults (α : Type) := List (ChainResult α)

namespace ChainResults

variable {α : Type}

/-- The numbers that occur twice, in ascending order. -/
def duplicated (numbers : List Int) : List Int :=
  (numbers.filter fun i => 1 < numbers.count i).eraseDups.mergeSort

/-- The numbers that were not issued, in ascending order. -/
def outside (numbers : List Int) (issued : Int) : List Int :=
  (numbers.filter fun i => i < 1 || issued < i).mergeSort

/-- The issued numbers that do not occur. -/
def missing (numbers : List Int) (issued : Int) : List Int :=
  ((List.range issued.toNat).map fun k => Int.ofNat k + 1).filter fun i => !numbers.contains i

/-- The results in the order of their numbers. -/
def ordered (results : ChainResults α) : ChainResults α :=
  results.mergeSort fun a b => a.chain ≤ b.chain

/-- Datasets with the variables of the first one, stacked chain by chain. -/
def stack (reference : Dataset α) (parts : List (Dataset α)) : Dataset α :=
  { reference with
    arrays := reference.arrays.map fun (name, a) =>
      (name, DrawArray.stack chainDim a.dims
        (parts.filterMap fun part => part.arrays.lookup name)) }

/-- Checks the numbers of the chains: each issued number once, and no other. -/
def checkNumbers (numbers : List Int) (issued : Int) : Except MergeError Unit := do
  if !(duplicated numbers).isEmpty then throw (.duplicated (duplicated numbers))
  if !(outside numbers issued).isEmpty then
    throw (.outside (outside numbers issued) (toString issued))
  if !(missing numbers issued).isEmpty then throw (.missing (missing numbers issued))

/-- Checks that a chain has the variables of the first one. -/
def checkSchema (reference result : ChainResult α) : Except MergeError Unit :=
  if result.draws.sameSchema reference.draws && result.stats.sameSchema reference.stats then .ok ()
  else .error (.schema result.chain reference.chain)

/-- Combines the results of the chains `1` to `issued`, given in any order. -/
def merge (results : ChainResults α) (issued : Int) : Except Failure (Posterior α) := do
  (checkNumbers (results.map ChainResult.chain) issued : Except MergeError Unit)
  match ordered results with
  | [] => refuse Fault.outOfBounds
  | first :: rest =>
    rest.forM fun result => (checkSchema first result : Except MergeError Unit)
    return ⟨(first :: rest).map ChainResult.chain,
      stack first.draws ((first :: rest).map ChainResult.draws),
      stack first.stats ((first :: rest).map ChainResult.stats)⟩

end ChainResults

end Multilevel
