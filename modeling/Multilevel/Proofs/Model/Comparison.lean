import Multilevel.Model.Specification
import Multilevel.Proofs.Data.Same
import Multilevel.Proofs.Model.Specification
import Multilevel.Proofs.Terms.Same
import Multilevel.Proofs.Value.Equal

/-!
# Specifications that compare equal

What specifications have in common that compare equal (`Specification.same_iff`). Their data may
list the levels of a factor in different orders, but not those of a factor that the formula uses:
the coefficients and the levels of groups, which are compared as well, tell that order
(`Specification.levelsOf?_eq`).

Knots and covariance matrices are compared number by number, and what is no number equals nothing.
Knots are finite and a symmetric matrix holds numbers only, so both equal themselves. The order in
which two of them are compared does not matter, nor does it for fragments whose records have
distinct keys.
-/
namespace Multilevel

/-- Tables that compare equal have numbers, or factors with the same levels, under the same
names. -/
theorem Frame.kindsAgree {a b : Frame} (same : a.same b = true) (left : a.IsTaken)
    (right : b.IsTaken) {name : String}
    (some : ∀ levels, a.levelsOf? name = some levels → levels ≠ []) :
    Design.KindsAgree (a.levelsOf? name) (b.levelsOf? name) := by
  obtain ⟨columns, rfl, agree⟩ := same_iff.mp same
  obtain ⟨rows, columns'⟩ := a
  unfold levelsOf? column? at some ⊢
  dsimp only at some ⊢
  have found := agree.lookup name
  have taken := left name
  have taken' := right name
  unfold column? at taken taken'
  dsimp only at taken taken'
  generalize columns'.lookup name = x at found some taken ⊢
  generalize columns.lookup name = y at found taken' ⊢
  cases found with
  | none => trivial
  | @some x y same =>
    simp only [Option.bind_some] at some ⊢
    obtain ⟨none, none'⟩ | ⟨levels, levels', factor, factor', listed⟩ := same.levels?_cases
    · rw [none, none']
      trivial
    · have first := ((taken x rfl).isSpanned factor).distinct
      have second := ((taken' y rfl).isSpanned factor').distinct
      rw [factor, factor']
      exact ⟨some levels factor, (List.perm_ext_iff_of_nodup first second).mpr listed⟩

/-- What fragments have in common that compare equal. -/
structure Fragment.Agrees (f g : Fragment) : Prop where
  /-- The code is equal. -/
  code : f.code = g.code
  /-- The code goes to the same block. -/
  block : f.block = g.block
  /-- The names are equal. -/
  name : f.name = g.name
  /-- The values are the same array. -/
  value : f.value.sameArray g.value = .ok true

/-- Lists of fragments compare equal exactly if they are as long and agree one by one. -/
theorem Fragments.sameItems_iff {items items' : List Fragment} :
    (items.length = items'.length ∧ sameItems items items' = .ok true) ↔
      List.Forall₂ Fragment.Agrees items items' := by
  induction items generalizing items' with
  | nil => cases items' <;> simp [sameItems, pure, Except.pure]
  | cons f rest ih =>
    cases items' with
    | nil => simp
    | cons g rest' =>
      rw [List.forall₂_cons, ← ih, sameItems, List.length_cons, List.length_cons,
        Nat.succ_inj]
      by_cases texts : (f.code == g.code && f.block == g.block && f.name == g.name) = true
      · rw [if_pos texts, bind_eq_ok]
        simp only [Bool.and_eq_true, beq_iff_eq] at texts
        obtain ⟨⟨code, block⟩, name⟩ := texts
        constructor
        · rintro ⟨count, compared, done, rest⟩
          cases compared with
          | true => exact ⟨⟨code, block, name, done⟩, count, rest⟩
          | false => cases rest
        · rintro ⟨agree, count, rest⟩
          exact ⟨count, true, agree.value, rest⟩
      · rw [if_neg texts]
        refine ⟨fun ⟨_, wrong⟩ => (nomatch wrong), fun ⟨agree, _⟩ => absurd ?_ texts⟩
        simp [agree.code, agree.block, agree.name]

/-- Collections of fragments compare equal exactly if their fragments agree one by one. -/
theorem Fragments.same_iff {a b : Fragments} :
    a.same b = .ok true ↔ List.Forall₂ Fragment.Agrees a.items b.items := by
  rw [← sameItems_iff, same]
  split
  · rename_i count
    exact ⟨fun wrong => (nomatch wrong), fun ⟨count', _⟩ => absurd count' count⟩
  · rename_i count
    exact ⟨fun done => ⟨not_not.mp count, done⟩, And.right⟩

namespace Specification

/-- What specifications have in common that compare equal. -/
structure Agrees (a b : Specification) : Prop where
  /-- The formulas are equal. -/
  formula : a.formula = b.formula
  /-- The families are equal. -/
  family : a.family = b.family
  /-- The data compare equal. -/
  data : a.data.same b.data = true
  /-- The terms compare equal. -/
  terms : a.terms.same b.terms = true
  /-- The priors in effect are equal. -/
  priors : a.priors = b.priors
  /-- The residuals have the same structure. -/
  autocorrelation : TermTree.sameAutocorrelation a.autocorrelation b.autocorrelation = true
  /-- The known covariances have equal entries. -/
  covariances : sameCovariances a.covariances b.covariances = true
  /-- The designs are sparse both or neither. -/
  sparse : a.sparse = b.sparse
  /-- The knots are equal numbers. -/
  knots : sameKnots a.knots b.knots = true
  /-- The fragments compare equal. -/
  fragments : a.fragments.same b.fragments = .ok true
  /-- The choices about draws from the priors are equal. -/
  samplePrior : a.samplePrior = b.samplePrior
  /-- The same variables are dropped from the output. -/
  exclude : a.exclude = b.exclude

/-- Specifications compare equal exactly if they have this in common. -/
theorem same_iff {a b : Specification} : a.same b = .ok true ↔ a.Agrees b := by
  unfold same
  constructor
  · intro done
    split at done
    · rename_i same
      simp only [Bool.and_eq_true, beq_iff_eq] at same
      rw [bind_eq_ok] at done
      obtain ⟨fragments, compared, done⟩ := done
      cases fragments with
      | false => cases done
      | true =>
        have rest := Except.ok.inj done
        simp only [Bool.and_eq_true, beq_iff_eq] at rest
        obtain ⟨⟨⟨⟨⟨⟨⟨⟨⟨_, formula⟩, family⟩, data⟩, terms⟩, priors⟩, residuals⟩, covariances⟩,
          sparse⟩, knots⟩ := same
        exact ⟨formula, family, data, terms, priors, residuals, covariances, sparse, knots,
          compared, rest.1, rest.2⟩
    · cases done
  · intro agree
    have names : (a.covariances.map Prod.fst == b.covariances.map Prod.fst) = true :=
      (Bool.and_eq_true_iff.mp agree.covariances).1
    simp [names, agree.formula, agree.family, agree.data, agree.terms, agree.priors,
      agree.autocorrelation, agree.covariances, agree.sparse, agree.knots, agree.fragments,
      agree.samplePrior, agree.exclude, pure, Except.pure, bind, Except.bind]

namespace Agrees

variable {a b : Specification} {A B : ModelArguments}

/-- The coefficients and the groups are equal. -/
theorem tree (agree : a.Agrees b) :
    a.terms.population = b.terms.population ∧ a.terms.groups = b.terms.groups := by
  have same := agree.terms
  simp only [TermTree.same, Bool.and_eq_true, beq_iff_eq] at same
  exact ⟨same.1.2, same.2⟩

end Agrees

/-- The data of a normal specification are as a model takes them. -/
theorem IsNormal.isTaken {A : ModelArguments} {a : Specification} (normal : IsNormal A a) :
    a.data.IsTaken := fun _ _ found => normal.taken found

/-- A factor of a normal specification has a level. -/
theorem IsNormal.levelsOf?_ne_nil {A : ModelArguments} {a : Specification} (normal : IsNormal A a)
    {name : String} {levels : List String} (factor : a.data.levelsOf? name = some levels) :
    levels ≠ [] := by
  obtain ⟨column, found, factor⟩ := Option.bind_eq_some_iff.mp factor
  cases column with
  | factor own codes =>
    obtain rfl := Option.some.inj factor
    refine normal.hasLevels name own codes ?_
    rw [Frame.predictors, Frame.column_eq_ok.mpr found]
    rfl
  | _ => cases factor

/-- The labels of a normal specification follow from the order of its levels. -/
theorem IsNormal.population_eq {A : ModelArguments} {a : Specification} (normal : IsNormal A a) :
    a.terms.population = (Design.labelsFrom a.data.levelsOf? a.formula.terms a.formula.intercept
      a.formula.terms).flatten := by
  obtain ⟨columns, design, population⟩ := normal.design
  rw [population, Design.labels_columnsOf a.data.hasKinds_levelsOf? (Design.matrix_eq_ok design).1]

/-- So do those of its groups. -/
theorem IsNormal.coefficients_eq {A : ModelArguments} {a : Specification} (normal : IsNormal A a)
    {group : Group} (mem : group ∈ a.terms.groups) : group.coefficients =
      (if group.term.intercept then ["Intercept"] else []) ++
        (Design.labelsFrom a.data.levelsOf? group.term.terms group.term.intercept
          group.term.terms).flatten := by
  obtain ⟨columns, design, coefficients⟩ := (normal.groups.built group mem).design
  simp only [Design.groupMatrix, bind_eq_ok, pure_eq_ok] at design
  obtain ⟨slopes, made, rfl⟩ := design
  rw [coefficients,
    ← Design.labels_columnsOf a.data.hasKinds_levelsOf? (Design.matrix_eq_ok made).1]
  split <;> rfl

/-- Specifications that compare equal list the levels of each factor of the formula in the same
order. -/
theorem Agrees.levelsOf?_eq {a b : Specification} {A B : ModelArguments} (agree : a.Agrees b)
    (left : IsNormal A a) (right : IsNormal B b) {name : String}
    (used : name ∈ a.formula.predictors) : a.data.levelsOf? name = b.data.levelsOf? name := by
  have kinds (name : String) :
      Design.KindsAgree (a.data.levelsOf? name) (b.data.levelsOf? name) :=
    Frame.kindsAgree agree.data left.isTaken right.isTaken fun _ => left.levelsOf?_ne_nil
  obtain ⟨population, groups⟩ := agree.tree
  rw [Formula.predictors, List.mem_append, List.mem_flatMap, List.mem_flatMap] at used
  rcases used with ⟨term, mem, inside⟩ | ⟨groupTerm, mem, inside⟩
  · rw [left.population_eq, right.population_eq, ← agree.formula] at population
    exact Design.levels_eq_of_labels (fun term mem name inside =>
      ((left.named.terms term mem).named name inside).ne_empty) (fun _ _ name _ => kinds name)
      population term mem name inside
  · rw [← left.groups.terms, List.mem_map] at mem
    obtain ⟨group, listed, rfl⟩ := mem
    rcases List.mem_append.mp inside with slope | factor
    · obtain ⟨term, mem, inside⟩ := List.mem_flatMap.mp slope
      have coefficients := (left.coefficients_eq listed).symm.trans
        (right.coefficients_eq (groups ▸ listed))
      refine Design.levels_eq_of_labels (fun term mem name inside => ?_)
        (fun _ _ name _ => kinds name) (List.append_cancel_left coefficients) term mem name inside
      have member : group.term ∈ a.formula.groupTerms := by
        rw [← left.groups.terms]
        exact List.mem_map_of_mem listed
      exact (((left.named.groupTerms _ member).terms term mem).named name inside).ne_empty
    · obtain rfl := List.mem_singleton.mp factor
      obtain ⟨x, found, levels⟩ := (left.groups.built group listed).levels
      obtain ⟨y, found', levels'⟩ := (right.groups.built group (groups ▸ listed)).levels
      have here : group.factor = group.term.group := rfl
      rw [here] at found found'
      rw [Frame.levelsOf?, Frame.levelsOf?, found, found', Option.bind_some, Option.bind_some,
        levels, levels']

end Specification

namespace Covariance

/-- Matrices of one size are equal if their entries are. -/
theorem same_iff {size : Nat} {cells cells' : Vector (Vector Float size) size} :
    Covariance.same ⟨size, cells⟩ ⟨size, cells'⟩ = true ↔
      ∀ row place, ((cells.get row).get place == (cells'.get row).get place) = true := by
  rw [same, beq_self_eq_true, Bool.true_and, Column.all_zip_iff]
  simp only [Column.all_zip_iff]

/-- An entry of a matrix that is as good as another one is a number. -/
theorem isNaN_of_close {x y : Float} (near : close x y = true) : y.isNaN = false := by
  rw [close, Bool.or_eq_true, Bool.and_eq_true] at near
  rcases near with ⟨_, finite⟩ | equal
  · exact Number.isNaN_of_isFinite finite
  · rw [(Number.alike_of_beq equal).beq_eq] at equal
    simpa using equal

/-- A symmetric matrix equals itself. -/
theorem same_self {m : Covariance} (symmetric : m.isSymmetric = true) : m.same m = true := by
  refine same_iff.mpr fun row place => ?_
  rw [isSymmetric, List.all_eq_true] at symmetric
  have near := List.all_eq_true.mp (symmetric place (List.mem_finRange _)) row (List.mem_finRange _)
  have number : ((m.cells.get row).get place).isNaN = false := isNaN_of_close near
  rw [Number.beq_self, number, Bool.not_false]

/-- Which of two matrices is named first does not matter. -/
theorem same_symm {m n : Covariance} (same : m.same n = true) : n.same m = true := by
  obtain ⟨size, cells⟩ := m
  obtain ⟨size', cells'⟩ := n
  have count : size = size' := eq_of_beq (Bool.and_eq_true_iff.mp same).1
  subst count
  exact same_iff.mpr fun row place => Number.beq_symm (same_iff.mp same row place)

end Covariance

namespace Specification

/-- Whether two lists hold equal numbers. -/
def sameNumbers (x y : List Float) : Bool :=
  x.length == y.length && (x.zip y).all fun pair => pair.1 == pair.2

/-- Lists hold equal numbers exactly if their numbers are equal one by one. -/
theorem sameNumbers_iff {x y : List Float} :
    sameNumbers x y = true ↔ List.Forall₂ (fun u v => (u == v) = true) x y := by
  rw [List.forall₂_iff_zip, sameNumbers, Bool.and_eq_true, beq_iff_eq, List.all_eq_true]
  refine and_congr_right' ⟨?_, ?_⟩
  · intro all u v mem
    exact all (u, v) mem
  · intro all pair mem
    exact all mem

/-- Lists of knots compare equal exactly if they have equal numbers under the same names. -/
theorem sameKnots_iff {a b : List (String × List Float)} : sameKnots a b = true ↔
    Entries.Related (List.Forall₂ fun u v => (u == v) = true) a b := by
  have each : Entries.Related (List.Forall₂ fun u v => (u == v) = true) a b ↔
      Entries.Related (fun x y => sameNumbers x y = true) a b :=
    ⟨fun all => all.imp fun _ _ => sameNumbers_iff.mpr,
      fun all => all.imp fun _ _ => sameNumbers_iff.mp⟩
  rw [each, Entries.related_iff, sameKnots, Bool.and_eq_true, beq_iff_eq]
  rfl

/-- Knots that are numbers compare equal to themselves. -/
theorem sameKnots_self {knots : List (String × List Float)}
    (numbers : ∀ entry ∈ knots, ∀ x ∈ entry.2, x.isNaN = false) : sameKnots knots knots = true := by
  refine sameKnots_iff.mpr (List.forall₂_same.mpr fun entry mem => ⟨rfl, ?_⟩)
  refine List.forall₂_same.mpr fun x inside => ?_
  rw [Number.beq_self, numbers entry mem x inside, Bool.not_false]

/-- Which of two lists of knots is named first does not matter. -/
theorem sameKnots_symm {a b : List (String × List Float)} (same : sameKnots a b = true) :
    sameKnots b a = true :=
  sameKnots_iff.mpr ((sameKnots_iff.mp same).symm fun _ _ each =>
    List.Forall₂.flip (each.imp fun _ _ => Number.beq_symm))

/-- Lists of covariance matrices compare equal exactly if they have equal matrices under the same
names. -/
theorem sameCovariances_iff {a b : List (String × Covariance)} : sameCovariances a b = true ↔
    Entries.Related (fun m n : Covariance => m.same n = true) a b := by
  rw [Entries.related_iff, sameCovariances, Bool.and_eq_true, beq_iff_eq]

/-- Symmetric matrices compare equal to themselves. -/
theorem sameCovariances_self {covariances : List (String × Covariance)}
    (symmetric : ∀ entry ∈ covariances, entry.2.isSymmetric = true) :
    sameCovariances covariances covariances = true :=
  sameCovariances_iff.mpr (List.forall₂_same.mpr fun entry mem =>
    ⟨rfl, Covariance.same_self (symmetric entry mem)⟩)

/-- Which of two lists of matrices is named first does not matter. -/
theorem sameCovariances_symm {a b : List (String × Covariance)}
    (same : sameCovariances a b = true) : sameCovariances b a = true :=
  sameCovariances_iff.mpr ((sameCovariances_iff.mp same).symm fun _ _ => Covariance.same_symm)

end Specification

namespace TermTree

/-- The structure of residuals compares equal to itself. -/
theorem sameAutocorrelation_self (a : Option Autocorrelation) : sameAutocorrelation a a = true := by
  cases a with
  | none => rfl
  | some a => simp [sameAutocorrelation, Autocorrelation.same]

/-- Which of two structures of residuals is named first does not matter. -/
theorem sameAutocorrelation_symm {a b : Option Autocorrelation}
    (same : sameAutocorrelation a b = true) : sameAutocorrelation b a = true := by
  cases a <;> cases b <;>
    simp_all [sameAutocorrelation, Autocorrelation.same]

/-- Structures of residuals that compare equal depend on the same columns. -/
theorem columns_of_sameAutocorrelation {p q : Option Autocorrelation}
    (same : sameAutocorrelation p q = true) :
    (p = none ∧ q = none) ∨ ∃ a b, p = some a ∧ q = some b ∧ a.time = b.time ∧
      a.group = b.group := by
  cases p with
  | none => cases q <;> first | exact .inl ⟨rfl, rfl⟩ | cases same
  | some a =>
    cases q with
    | none => cases same
    | some b =>
      simp only [sameAutocorrelation, Autocorrelation.same, Bool.and_eq_true, beq_iff_eq] at same
      exact .inr ⟨a, b, rfl, rfl, same.1.2, same.2⟩

/-- There are residuals with a structure in both or in neither. -/
theorem isSome_of_sameAutocorrelation {p q : Option Autocorrelation}
    (same : sameAutocorrelation p q = true) : p.isSome = q.isSome := by
  obtain ⟨rfl, rfl⟩ | ⟨a, b, rfl, rfl, _⟩ := columns_of_sameAutocorrelation same <;> rfl

end TermTree

namespace Fragments

/-- Whether the value of each fragment is the same array as itself. Lists of different lengths are
no array, and what is no number equals nothing. -/
def AreComparable (fragments : Fragments) : Prop :=
  ∀ f ∈ fragments.items, f.value.sameArray f.value = .ok true

/-- Fragments compare equal to themselves exactly if their values do. -/
theorem same_self_iff {fragments : Fragments} :
    fragments.same fragments = .ok true ↔ fragments.AreComparable := by
  rw [same_iff, List.forall₂_same]
  exact ⟨fun each f mem => (each f mem).value, fun each f mem => ⟨rfl, rfl, rfl, each f mem⟩⟩

/-- Fragments in whose values no key stands twice may be compared the other way round. -/
theorem same_symm {a b : Fragments} (keyed : ∀ f ∈ a.items, f.value.HasDistinctKeys)
    (same : a.same b = .ok true) : b.same a = .ok true :=
  same_iff.mpr (List.Forall₂.flip ((forall₂_and_mem (same_iff.mp same)).imp fun f _ ⟨mem, agree⟩ =>
    ⟨agree.code.symm, agree.block.symm, agree.name.symm,
      Value.sameArray_symm (keyed f mem) agree.value⟩))

end Fragments

end Multilevel
