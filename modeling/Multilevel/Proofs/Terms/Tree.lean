import Mathlib
import Multilevel.Proofs.Data.Cleaning
import Multilevel.Proofs.Terms.Design
import Multilevel.Terms.Tree

/-!
# What building a tree of terms guarantees

The groups of a tree are numbered from one in the order of their terms, hold the labels of their
design and the levels of their factor, and no coefficient varies twice with one factor
(`TermTree.AreBuilt`).
-/
namespace Multilevel

/-- A group holds what the data say about its term. -/
structure Group.IsBuilt (frame : Frame) (covariances : List String) (group : Group) : Prop where
  /-- The coefficients are the labels of the design. -/
  design : ∃ columns, Design.groupMatrix frame.predictors group.term = .ok columns ∧
    group.coefficients = columns.map DesignColumn.label
  /-- The levels are those of the grouping factor. -/
  levels : ∃ column, frame.column? group.factor = some column ∧ column.levels? = some group.levels
  /-- The covariance of the levels is known exactly if one was given. -/
  covariance : group.hasCovariance = covariances.contains group.factor

/-- The coefficients of a group with its factor. -/
def Group.effects (group : Group) : List (String × String) :=
  group.coefficients.map fun coefficient => (group.factor, coefficient)

namespace TermTree

/-- Groups as built from terms and data. -/
structure AreBuilt (frame : Frame) (covariances : List String) (terms : List GroupTerm)
    (groups : List Group) : Prop where
  /-- The groups come in the order of the terms. -/
  terms : groups.map Group.term = terms
  /-- They are numbered from one. -/
  ids : groups.map Group.id = List.range' 1 groups.length
  /-- Each holds what the data say about its term. -/
  built : ∀ group ∈ groups, group.IsBuilt frame covariances
  /-- A coefficient varies only once with a factor. -/
  distinct : (groups.flatMap Group.effects).Nodup

/-- No name was seen before. -/
theorem firstTwice_eq_none {seen names : List String} :
    addGroups.firstTwice seen names = none ↔ names.Nodup ∧ ∀ name ∈ names, name ∉ seen := by
  induction names generalizing seen with
  | nil => simp [addGroups.firstTwice]
  | cons name rest ih =>
    rw [addGroups.firstTwice]
    by_cases before : name ∈ seen
    · simp [before]
    · simp only [List.contains_iff_mem, before, ↓reduceIte, ih, List.nodup_cons, List.mem_cons]
      grind

/-- The effects of the groups of a factor are its coefficients in them. -/
theorem mem_effects_iff {groups : List Group} {factor coefficient : String} :
    (factor, coefficient) ∈ groups.flatMap Group.effects ↔
      coefficient ∈ groups.flatMap fun group =>
        if group.factor = factor then group.coefficients else [] := by
  simp only [List.mem_flatMap, Group.effects, List.mem_map, Prod.mk.injEq]
  constructor
  · rintro ⟨group, mem, coefficient, inside, rfl, rfl⟩
    exact ⟨group, mem, by simpa using inside⟩
  · rintro ⟨group, mem, inside⟩
    split at inside
    · rename_i same
      exact ⟨group, mem, coefficient, inside, same, rfl⟩
    · cases inside

/-- The coefficients of a group are distinct. -/
theorem AreBuilt.nodup_coefficients {frame : Frame} {covariances : List String}
    {terms : List GroupTerm} {groups : List Group} (built : AreBuilt frame covariances terms groups)
    {group : Group} (mem : group ∈ groups) : group.coefficients.Nodup :=
  ((List.nodup_flatMap.mp built.distinct).1 group mem).of_map _

/-- A coefficient varies with a factor in one group only. -/
theorem AreBuilt.group_unique {frame : Frame} {covariances : List String} {terms : List GroupTerm}
    {groups : List Group} (built : AreBuilt frame covariances terms groups) {first second : Group}
    (left : first ∈ groups) (right : second ∈ groups) (same : first.factor = second.factor)
    {coefficient : String} (own : coefficient ∈ first.coefficients)
    (also : coefficient ∈ second.coefficients) : first = second := by
  by_contra differ
  have apart : List.Pairwise (fun one two : Group => List.Disjoint one.effects two.effects)
      groups := (List.nodup_flatMap.mp built.distinct).2
  have : Std.Symm fun one two : Group => List.Disjoint one.effects two.effects :=
    ⟨fun _ _ disjoint => disjoint.symm⟩
  refine apart.forall left right differ (List.mem_map_of_mem own) ?_
  rw [same]
  exact List.mem_map_of_mem (f := fun coefficient => (second.factor, coefficient)) also

/-- One more group, built from the next term, keeps groups built. -/
theorem AreBuilt.append {frame : Frame} {covariances : List String} {terms : List GroupTerm}
    {built : List Group} (start : AreBuilt frame covariances terms built) {group : Group}
    (number : group.id = built.length + 1) (next : group.IsBuilt frame covariances)
    (own : group.coefficients.Nodup)
    (fresh : ∀ effect ∈ group.effects, effect ∉ built.flatMap Group.effects) :
    AreBuilt frame covariances (terms ++ [group.term]) (built ++ [group]) where
  terms := by rw [List.map_append, start.terms]; rfl
  ids := by
    rw [List.map_append, start.ids, List.length_append, List.length_singleton, List.range'_concat,
      List.map_singleton, number, Nat.one_mul, Nat.add_comm]
  built other mem := by
    rcases List.mem_append.mp mem with earlier | last
    · exact start.built other earlier
    · exact List.mem_singleton.mp last ▸ next
  distinct := by
    rw [List.flatMap_append, List.nodup_append]
    have distinct : group.effects.Nodup := own.map fun _ _ same => (Prod.mk.inj same).2
    refine ⟨start.distinct, by simpa using distinct, ?_⟩
    intro effect before other last same
    exact fresh other (by simpa using last) (same ▸ before)

/-- Adding groups keeps groups built. -/
theorem addGroups_eq_ok {frame : Frame} {covariances : List String} {terms rest : List GroupTerm}
    {built groups : List Group} (start : AreBuilt frame covariances terms built)
    (done : addGroups frame covariances rest built = .ok groups) :
    AreBuilt frame covariances (terms ++ rest) groups := by
  induction rest generalizing terms built with
  | nil =>
    obtain rfl := Except.ok.inj done
    simpa using start
  | cons term rest ih =>
    simp only [addGroups, bind_eq_ok, liftM_eq_mapError] at done
    obtain ⟨columns, design, done⟩ := done
    split at done
    · simp [refuse_bind, refuse_ne_ok] at done
    rename_i free
    obtain ⟨distinct, fresh⟩ :=
      firstTwice_eq_none.mp (Option.eq_none_iff_forall_ne_some.mpr free)
    simp only [bind_eq_ok, mapError_eq_ok, Frame.column_eq_ok] at done
    obtain ⟨column, found, done⟩ := done
    split at done
    · rename_i levels factor
      have next : Group.IsBuilt frame covariances ⟨built.length + 1, term,
          columns.map DesignColumn.label, levels, covariances.contains term.group⟩ :=
        ⟨⟨columns, design, rfl⟩, ⟨column, found, factor⟩, rfl⟩
      have one := start.append rfl next distinct ?_
      · simpa using ih one done
      · intro effect mem before
        obtain ⟨coefficient, inside, rfl⟩ := List.mem_map.mp mem
        exact fresh coefficient inside (mem_effects_iff.mp before)
    · simp [refuse_ne_ok] at done

/-- What the tree of a formula and cleaned data holds. -/
theorem build_eq_ok {formula : Formula} {family : Family}
    {autocorrelation : Option Autocorrelation} {frame : Frame} {covariances : List String}
    {tree : TermTree}
    (done : build formula family autocorrelation frame covariances = .ok tree) :
    (tree.formula = formula ∧ tree.family = family ∧ tree.autocorrelation = autocorrelation) ∧
      (∃ columns, Design.matrix frame.predictors formula.intercept formula.terms = .ok columns ∧
        tree.population = columns.map DesignColumn.label) ∧
      AreBuilt frame covariances formula.groupTerms tree.groups := by
  simp only [build, bind_eq_ok, pure_eq_ok] at done
  obtain ⟨columns, design, groups, added, rfl⟩ := done
  have start : AreBuilt frame covariances [] [] := ⟨rfl, rfl, by simp, by simp⟩
  exact ⟨⟨rfl, rfl, rfl⟩, ⟨columns, design, rfl⟩, addGroups_eq_ok start added⟩

end TermTree

end Multilevel
