import Multilevel.Prior.Slots
import Multilevel.Proofs.Formula.Reader
import Multilevel.Proofs.Terms.Tree

/-!
# Slots of a model

The slots of a model are distinct (`Priors.nodup_slots`). The labels of design columns are distinct
and not empty, no coefficient varies twice with a factor, and each kind of parameter has classes of
its own.
-/
namespace Multilevel

/-- The label of a product of variables with names is not empty. -/
theorem Design.IsProduct.label_ne_empty {rows : Nat} {find : Predictors Float rows}
    {names : List String} {column : DesignColumn Float rows}
    (product : IsProduct find names column) (nonempty : names ≠ [])
    (named : ∀ name ∈ names, IsVariableName name) : column.label ≠ "" := by
  obtain ⟨factors, rfl, each⟩ := product
  have labelled : ∀ factor ∈ factors, factor.label ≠ "" := by
    clear nonempty
    induction each with
    | nil => simp
    | cons first _ ih =>
      obtain ⟨_, level, _, label, _⟩ := first
      rw [List.forall_mem_cons] at named
      exact List.forall_mem_cons.mpr ⟨by simp [label, named.1.ne_empty], ih named.2⟩
  have some : factors ≠ [] := by
    rintro rfl
    exact nonempty (List.forall₂_nil_right_iff.mp each)
  obtain ⟨first, rest, rfl⟩ := List.exists_cons_of_ne_nil some
  rw [DesignColumn.product_label labelled]
  have present := labelled first List.mem_cons_self
  cases rest <;> simp [present]

/-- The labels of a design with named terms are not empty. -/
theorem Design.label_ne_empty {rows : Nat} {find : Predictors Float rows} {intercept : Bool}
    {terms : List Term} {columns : List (DesignColumn Float rows)}
    (done : matrix find intercept terms = .ok columns) (named : ∀ term ∈ terms, term.IsNamed) :
    "" ∉ columns.map DesignColumn.label := by
  intro mem
  obtain ⟨column, inside, empty⟩ := List.mem_map.mp mem
  obtain ⟨term, listed, product⟩ := of_mem_matrix done inside
  exact product.label_ne_empty (named term listed).nonempty (named term listed).named empty

/-- The labels of the design of a named group-level term are not empty. -/
theorem Design.label_ne_empty_of_group {rows : Nat} {find : Predictors Float rows}
    {term : GroupTerm} {columns : List (DesignColumn Float rows)}
    (done : groupMatrix find term = .ok columns) (named : term.IsNamed) :
    "" ∉ columns.map DesignColumn.label := by
  simp only [groupMatrix, bind_eq_ok, pure_eq_ok] at done
  obtain ⟨slopes, made, rfl⟩ := done
  have others := label_ne_empty made named.terms
  split
  · simpa [DesignColumn.ones] using others
  · exact others

namespace Priors

/-- Distinct slots of some classes of parameters. -/
structure AreOf (classes : List String) (slots : List Slot) : Prop where
  /-- The slots are distinct. -/
  nodup : slots.Nodup
  /-- Their parameters are of these classes. -/
  classes : ∀ slot ∈ slots, slot.className ∈ classes

/-- Slots of different classes are distinct. -/
theorem AreOf.append {first second : List String} {slots others : List Slot}
    (left : AreOf first slots) (right : AreOf second others) (apart : ∀ name ∈ first, name ∉ second) :
    AreOf (first ++ second) (slots ++ others) where
  nodup := List.nodup_append.mpr ⟨left.nodup, right.nodup, fun slot here other there same =>
    apart _ (left.classes slot here) (same ▸ right.classes other there)⟩
  classes slot mem := by
    rcases List.mem_append.mp mem with here | there
    · exact List.mem_append_left _ (left.classes slot here)
    · exact List.mem_append_right _ (right.classes slot there)

/-- The slot of a slope is a slot of the model. -/
theorem mem_slots_of_mem_population {tree : TermTree} {coefficient : String}
    (mem : coefficient ∈ tree.population) : ⟨"b", coefficient, ""⟩ ∈ slots tree := by
  have nonempty : tree.population ≠ [] := List.ne_nil_of_mem mem
  have own : ⟨"b", coefficient, ""⟩ ∈ populationSlots tree := by
    simp [populationSlots, nonempty, mem]
  simp only [slots, List.mem_append]
  exact .inl (.inl (.inl (.inl own)))

section Built

variable {formula : Formula} {family : Family} {autocorrelation : Option Autocorrelation}
  {frame : Frame} {covariances : List String} {tree : TermTree}

/-- The slots of the coefficients that all observations share are distinct. -/
theorem areOf_populationSlots (distinct : tree.population.Nodup) (named : "" ∉ tree.population) :
    AreOf ["b"] (populationSlots tree) := by
  unfold populationSlots
  split
  · exact ⟨List.nodup_nil, by simp⟩
  · refine ⟨List.nodup_cons.mpr ⟨by simpa using named, ?_⟩, by simp⟩
    exact distinct.map fun _ _ same => (Slot.mk.inj same).2.1

/-- The slots of the coefficients that vary with a factor are distinct. -/
theorem nodup_effectSlots (distinct : (tree.groups.flatMap Group.effects).Nodup) (factor : String) :
    ((tree.groupsOf factor).flatMap fun group =>
      group.coefficients.map fun coefficient => (⟨"sd", coefficient, factor⟩ : Slot)).Nodup := by
  have part : ((tree.groupsOf factor).flatMap Group.effects).Nodup :=
    distinct.sublist (List.Sublist.flatMap List.filter_sublist _)
  have renamed : ((tree.groupsOf factor).flatMap fun group =>
      group.coefficients.map fun coefficient => (⟨"sd", coefficient, factor⟩ : Slot)) =
        ((tree.groupsOf factor).flatMap Group.effects).map fun effect =>
          ⟨"sd", effect.2, effect.1⟩ := by
    rw [List.map_flatMap]
    refine List.flatMap_congr fun group mem => ?_
    have here : group.factor = factor := by simpa using (List.mem_filter.mp mem).2
    rw [Group.effects, List.map_map, here]
    rfl
  rw [renamed]
  refine part.map fun effect other same => ?_
  obtain ⟨-, coefficient, factor⟩ := Slot.mk.inj same
  exact Prod.ext factor coefficient

/-- The slots of deviations are distinct. -/
theorem areOf_deviationSlots (distinct : (tree.groups.flatMap Group.effects).Nodup)
    (named : ∀ group ∈ tree.groups, group.factor ≠ "" ∧ "" ∉ group.coefficients) :
    AreOf ["sd"] (deviationSlots tree) := by
  unfold deviationSlots
  split
  · exact ⟨List.nodup_nil, by simp⟩
  have factors : ∀ factor ∈ tree.factors, factor ≠ "" := by
    intro factor mem
    obtain ⟨group, inside, rfl⟩ := List.mem_map.mp (List.mem_eraseDups.mp mem)
    exact (named group inside).1
  constructor
  case classes =>
    refine List.forall_mem_cons.mpr ⟨by simp, fun slot mem => ?_⟩
    obtain ⟨factor, _, mem⟩ := List.mem_flatMap.mp mem
    simp [(of_mem_factorSlots mem).1]
  case nodup =>
    refine List.nodup_cons.mpr ⟨fun mem => ?_, List.nodup_flatMap.mpr ⟨fun factor _ => ?_, ?_⟩⟩
    · obtain ⟨factor, inside, mem⟩ := List.mem_flatMap.mp mem
      exact factors factor inside (of_mem_factorSlots mem).2.symm
    · refine List.nodup_cons.mpr ⟨fun mem => ?_, nodup_effectSlots distinct factor⟩
      obtain ⟨group, inside, mem⟩ := List.mem_flatMap.mp mem
      obtain ⟨coefficient, listed, same⟩ := List.mem_map.mp mem
      obtain ⟨-, rfl, -⟩ := Slot.mk.inj same
      exact (named group (List.mem_filter.mp inside).1).2 listed
    · refine (nodup_eraseDups _).imp fun differ _ left right => differ ?_
      rw [← (of_mem_factorSlots left).2, (of_mem_factorSlots right).2]

/-- The slots of correlations are distinct. -/
theorem areOf_correlationSlots (named : ∀ group ∈ tree.groups, group.factor ≠ "") :
    AreOf ["cor"] (correlationSlots tree) := by
  unfold correlationSlots
  split
  case isFalse => exact ⟨List.nodup_nil, by simp⟩
  have kept : (tree.factors.filterMap fun factor =>
      if (tree.groupsOf factor).any Group.hasCorrelations then
        some (⟨"cor", "", factor⟩ : Slot) else none) =
      (tree.factors.filter fun factor => (tree.groupsOf factor).any Group.hasCorrelations).map
        fun factor => ⟨"cor", "", factor⟩ := by
    rw [← List.filterMap_eq_map, ← List.filterMap_eq_filter, List.filterMap_filterMap]
    refine List.filterMap_congr fun factor _ => ?_
    cases correlated : (tree.groupsOf factor).any Group.hasCorrelations <;>
      simp [Option.guard, correlated]
  rw [kept]
  refine ⟨List.nodup_cons.mpr ⟨fun mem => ?_, ?_⟩,
    List.forall_mem_cons.mpr ⟨by simp, List.forall_mem_map.mpr (by simp)⟩⟩
  · obtain ⟨factor, inside, same⟩ := List.mem_map.mp mem
    obtain ⟨-, -, rfl⟩ := Slot.mk.inj same
    obtain ⟨group, listed, empty⟩ :=
      List.mem_map.mp (List.mem_eraseDups.mp (List.mem_filter.mp inside).1)
    exact named group listed empty
  · exact ((nodup_eraseDups _).filter _).map fun _ _ same => (Slot.mk.inj same).2.2

/-- The slots of auxiliary parameters are distinct. -/
theorem areOf_auxiliarySlots (tree : TermTree) :
    AreOf ["sigma", "nu", "shape", "ar"]
      (tree.auxiliaries.map fun name => (⟨name, "", ""⟩ : Slot)) := by
  have names : tree.auxiliaries.Sublist ["sigma", "nu", "shape", "ar"] := by
    unfold TermTree.auxiliaries
    cases tree.family.distribution <;> cases tree.autocorrelation.isSome <;> decide
  have distinct : tree.auxiliaries.Nodup := names.nodup (by decide)
  refine ⟨distinct.map fun _ _ same => (Slot.mk.inj same).1, fun slot mem => ?_⟩
  obtain ⟨name, inside, rfl⟩ := List.mem_map.mp mem
  exact names.subset inside

/-- The slots of a model are distinct. -/
theorem nodup_slots (named : formula.IsNamed)
    (built : TermTree.build formula family autocorrelation frame covariances = .ok tree) :
    (slots tree).Nodup := by
  obtain ⟨-, ⟨columns, design, population⟩, groups⟩ := TermTree.build_eq_ok built
  have coefficients : tree.population.Nodup ∧ "" ∉ tree.population := by
    rw [population]
    exact ⟨(Design.matrix_eq_ok design).2, Design.label_ne_empty design named.terms⟩
  have effects : ∀ group ∈ tree.groups, group.factor ≠ "" ∧ "" ∉ group.coefficients := by
    intro group mem
    have listed : group.term ∈ formula.groupTerms := groups.terms ▸ List.mem_map_of_mem mem
    have own := named.groupTerms group.term listed
    obtain ⟨columns, design, labels⟩ := (groups.built group mem).design
    exact ⟨own.group.ne_empty, labels ▸ Design.label_ne_empty_of_group design own⟩
  have intercept : AreOf ["Intercept"]
      (if tree.intercept then [(⟨"Intercept", "", ""⟩ : Slot)] else []) := by
    split <;> constructor <;> simp
  exact ((((areOf_populationSlots coefficients.1 coefficients.2).append intercept
    (by decide)).append (areOf_deviationSlots groups.distinct effects) (by decide)).append
    (areOf_correlationSlots fun group mem => (effects group mem).1) (by decide)).append
    (areOf_auxiliarySlots tree) (by decide) |>.nodup

end Built

end Priors

end Multilevel
