import Multilevel.Prior.Basic
import Multilevel.Terms.Tree

/-!
# Prior slots of a model

The slots that a model has, in a fixed order, with the default prior of each; `merge` puts the
priors of a caller in their places. Whether draws from the priors are asked for decides if a
parameter may do without a prior.
-/
namespace Multilevel

/-- Whether the priors are drawn from: not at all, beside the posterior, or instead of it. -/
inductive SamplePrior where
  | no
  | yes
  | only
  deriving Repr, DecidableEq, Inhabited

namespace SamplePrior

/-- The name of a choice. -/
def name : SamplePrior → String
  | no => "no"
  | yes => "yes"
  | only => "only"

/-- The choice of a name. -/
def ofName? (name : String) : Option SamplePrior :=
  [no, yes, only].find? fun choice => choice.name == name

end SamplePrior

namespace Priors

/-- The default prior of a class of parameters. -/
def classDefault (className : String) : String :=
  if className = "Intercept" || className = "sd" || className = "sigma" then "student_t(3, 0, 10)"
  else if className = "cor" then "lkj(1)"
  else if className = "nu" then "gamma(2, 0.1)"
  else if className = "shape" then "gamma(0.01, 0.01)"
  else ""

/-- The slots of the coefficients shared by all observations. -/
def populationSlots (tree : TermTree) : List Slot :=
  if tree.population.isEmpty then []
  else ⟨"b", "", ""⟩ :: tree.population.map fun coefficient => ⟨"b", coefficient, ""⟩

/-- The slots of the deviations between the levels of grouping factors. -/
def deviationSlots (tree : TermTree) : List Slot :=
  if tree.groups.isEmpty then []
  else ⟨"sd", "", ""⟩ :: tree.factors.flatMap fun factor =>
    ⟨"sd", "", factor⟩ :: (tree.groupsOf factor).flatMap fun group =>
      group.coefficients.map fun coefficient => ⟨"sd", coefficient, factor⟩

/-- The slots of the deviations between the levels of one factor are in its group. -/
theorem of_mem_factorSlots {tree : TermTree} {factor : String} {slot : Slot}
    (mem : slot ∈ ⟨"sd", "", factor⟩ :: (tree.groupsOf factor).flatMap fun group =>
      group.coefficients.map fun coefficient => ⟨"sd", coefficient, factor⟩) :
    slot.className = "sd" ∧ slot.group = factor := by
  rcases List.mem_cons.mp mem with rfl | mem
  · exact ⟨rfl, rfl⟩
  · obtain ⟨group, _, mem⟩ := List.mem_flatMap.mp mem
    obtain ⟨coefficient, _, rfl⟩ := List.mem_map.mp mem
    exact ⟨rfl, rfl⟩

/-- The slots of correlations between coefficients. -/
def correlationSlots (tree : TermTree) : List Slot :=
  if tree.groups.any Group.hasCorrelations then
    ⟨"cor", "", ""⟩ :: tree.factors.filterMap fun factor =>
      if (tree.groupsOf factor).any Group.hasCorrelations then some ⟨"cor", "", factor⟩ else none
  else []

/-- All slots of a model in order. -/
def slots (tree : TermTree) : List Slot :=
  populationSlots tree ++ (if tree.intercept then [⟨"Intercept", "", ""⟩] else []) ++
    deviationSlots tree ++ correlationSlots tree ++
    tree.auxiliaries.map fun name => ⟨name, "", ""⟩

/-- The default prior of a slot: that of its class, unless the slot is a part of the class. -/
def slotDefault (slot : Slot) : Prior :=
  ⟨if slot.coefficient.isEmpty && slot.group.isEmpty then classDefault slot.className else "",
    slot⟩

/-- The default priors of a model, one per slot. -/
def defaults (tree : TermTree) : List Prior := (slots tree).map slotDefault

/-- A prior in its place among the priors of all slots. -/
def place (priors : List Prior) (prior : Prior) : List Prior :=
  priors.map fun p => if p.slot = prior.slot then prior else p

/-- Puts the priors of a caller in their places, given the slots that have been used. Each must be
well-formed, stand on a slot of the model, and be the only one there. -/
def placeAll : List Prior → List Slot → List Prior → Except PriorError (List Prior)
  | [], _, merged => .ok merged
  | prior :: rest, used, merged => do
    prior.validate
    let ⟨className, coefficient, group⟩ := prior.slot
    if used.contains prior.slot then throw (.duplicated className coefficient group)
    if (get? merged prior.slot).isNone then
      throw (.noSlot prior.text className coefficient group)
    placeAll rest (prior.slot :: used) (place merged prior)

/-- The parameters shared by all observations that have no prior in effect. -/
def withoutPrior (tree : TermTree) (priors : List Prior) : List String :=
  (tree.population.filter fun coefficient =>
      (lookup priors ⟨"b", coefficient, ""⟩).text.isEmpty).map ("b_" ++ ·) ++
    (if tree.intercept && (lookup priors ⟨"Intercept", "", ""⟩).text.isEmpty then ["Intercept"]
      else [])

/-- The priors of a model: those of a caller in their places, the defaults elsewhere. If draws come
from the priors alone, no coefficient may be without a prior. -/
def merge (tree : TermTree) (given : List Prior) (sample : SamplePrior) :
    Except PriorError (List Prior) := do
  let merged ← placeAll given [] (defaults tree)
  if sample = .only then
    let improper := withoutPrior tree merged
    if !improper.isEmpty then throw (.improper improper)
  return merged

end Priors

end Multilevel
