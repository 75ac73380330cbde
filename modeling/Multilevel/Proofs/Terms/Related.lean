import Multilevel.Proofs.EndAlike
import Multilevel.Proofs.Terms.Tree

/-!
# Designs of related variables

What relates the numbers of two tables and is kept by products relates their designs: variables with
the same levels and related numbers make columns with the same labels and related numbers, or meet
the same error (`Design.matrix_related`). So the terms of a model follow from the levels of its
variables (`TermTree.build_related`). The tables may have different numbers of rows.
-/
namespace Multilevel

variable {α : Type} {m n : Nat} {related : Vector α m → Vector α n → Prop}

/-- Whether two columns of designs have one label and related numbers. -/
structure DesignColumn.Related (related : Vector α m → Vector α n → Prop) (x : DesignColumn α m)
    (y : DesignColumn α n) : Prop where
  /-- The labels are equal. -/
  label : x.label = y.label
  /-- The numbers are related. -/
  cells : related x.cells y.cells

/-- Lists of related columns have the same labels. -/
theorem DesignColumn.labels_of_related {xs : List (DesignColumn α m)} {ys : List (DesignColumn α n)}
    (each : List.Forall₂ (Related related) xs ys) : xs.map label = ys.map label := by
  induction each with
  | nil => rfl
  | cons first _ ih => rw [List.map_cons, List.map_cons, first.label, ih]

/-- Whether two variables contribute related numbers: numbers that are, or the same levels with
indicators that are. -/
inductive Predictor.Related [OfNat α 0] [OfNat α 1] (related : Vector α m → Vector α n → Prop) :
    Predictor α m → Predictor α n → Prop where
  | numeric {u v} (cells : related u v) : Related related (.numeric u) (.numeric v)
  | factor {levels codes codes'}
    (each : ∀ level, related (indicators codes level) (indicators codes' level)) :
    Related related (.factor levels codes) (.factor levels codes')

namespace Design

/-- Whether constant columns are related and products of related columns are. -/
structure IsKept [Mul α] [OfNat α 1] (related : Vector α m → Vector α n → Prop) : Prop where
  ones : related (Vector.replicate m 1) (Vector.replicate n 1)
  times : ∀ {u v u' v'}, related u v → related u' v' →
    related (u.zipWith (· * ·) u') (v.zipWith (· * ·) v')

variable [OfNat α 0] [OfNat α 1] {find : Predictors α m} {find' : Predictors α n}
  {all terms : List Term}

/-- Whether variables of some names contribute related numbers, or meet the same error. -/
def AreRelated (related : Vector α m → Vector α n → Prop) (find : Predictors α m)
    (find' : Predictors α n) (names : List String) : Prop :=
  ∀ name ∈ names, EndAlike (Predictor.Related related) (find name) (find' name)

/-- Variables that are related contribute related columns. -/
theorem columns_related {p : Predictor α m} {q : Predictor α n} (same : p.Related related q)
    (name : String) (full : Bool) :
    List.Forall₂ (DesignColumn.Related related) (p.columns name full) (q.columns name full) := by
  cases same with
  | numeric cells => exact .cons ⟨rfl, cells⟩ .nil
  | @factor levels codes codes' each =>
    have indicators : List.Forall₂ (DesignColumn.Related related)
        ((List.finRange levels.length).map fun level =>
          ⟨name ++ levels.get level, Predictor.indicators codes level⟩)
        ((List.finRange levels.length).map fun level =>
          ⟨name ++ levels.get level, Predictor.indicators codes' level⟩) := by
      refine List.forall₂_map_left_iff.mpr (List.forall₂_map_right_iff.mpr ?_)
      exact List.forall₂_same.mpr fun level _ => ⟨rfl, each level⟩
    unfold Predictor.columns
    dsimp only
    split
    · exact indicators
    · rw [← List.drop_one, ← List.drop_one]
      exact List.forall₂_drop 1 indicators

/-- Terms of related variables are coded the same. -/
theorem coding_related {constant : Bool} {term : Term}
    (found : AreRelated related find find' term.names) :
    EndAlike Eq (coding find all constant term) (coding find' all constant term) := by
  unfold coding
  split
  · rename_i name single
    split
    · exact .ok rfl
    · refine (found name (by simp [single])).bind fun p q same => ?_
      cases same <;> exact .pure rfl
  · exact .ok rfl

variable [Mul α]

/-- Terms of related variables have related columns. -/
theorem termColumns_related (kept : IsKept related) {choices : List (String × Bool)}
    (found : AreRelated related find find' (choices.map Prod.fst)) :
    EndAlike (List.Forall₂ (DesignColumn.Related related)) (termColumns find choices)
      (termColumns find' choices) := by
  refine EndAlike.foldlM ?_ (.cons ⟨rfl, kept.ones⟩ .nil)
  rintro ⟨name, full⟩ mem xs ys each
  have own := found name (List.mem_map_of_mem mem)
  cases each with
  | nil => exact .ok .nil
  | cons first rest =>
    refine own.bind fun p q same => .pure ?_
    refine List.rel_flatMap (.cons first rest) fun x y left =>
      List.rel_map (fun x' y' right => ⟨?_, kept.times left.cells right.cells⟩)
        (columns_related same name full)
    rw [DesignColumn.times, DesignColumn.times, left.label, right.label]

/-- So do lists of terms. -/
theorem columnsOf_related (kept : IsKept related) {constant : Bool}
    (found : AreRelated related find find' (terms.flatMap Term.names)) :
    EndAlike (List.Forall₂ (DesignColumn.Related related)) (columnsOf find all constant terms)
      (columnsOf find' all constant terms) := by
  induction terms generalizing constant with
  | nil => exact .ok .nil
  | cons term rest ih =>
    have own : AreRelated related find find' term.names := fun name mem => found name (by simp [mem])
    have others : AreRelated related find find' (rest.flatMap Term.names) := fun name mem =>
      found name (by rw [List.flatMap_cons]; exact List.mem_append_right _ mem)
    refine (coding_related own).reached.bind ?_
    rintro ⟨choices, after⟩ _ ⟨rfl, coded, _⟩
    refine (termColumns_related kept (coding_eq_ok coded ▸ own)).bind fun _ _ first => ?_
    exact (ih others).bind fun _ _ second => .pure (List.rel_append first second)

/-- Related variables make related designs, or meet the same error. -/
theorem matrix_related (kept : IsKept related) {intercept : Bool}
    (found : AreRelated related find find' (terms.flatMap Term.names)) :
    EndAlike (List.Forall₂ (DesignColumn.Related related)) (matrix find intercept terms)
      (matrix find' intercept terms) := by
  refine (columnsOf_related kept found).lift.bind fun xs ys each => ?_
  have labels := DesignColumn.labels_of_related each
  dsimp only
  rw [labels]
  split
  · exact .error _
  · exact .ok each

/-- Related variables make related designs of group-level terms, or meet the same error. -/
theorem groupMatrix_related (kept : IsKept related) {term : GroupTerm}
    (found : AreRelated related find find' (term.terms.flatMap Term.names)) :
    EndAlike (List.Forall₂ (DesignColumn.Related related)) (groupMatrix find term)
      (groupMatrix find' term) := by
  refine (matrix_related kept found).bind fun xs ys each => .pure ?_
  split
  · exact .cons ⟨rfl, kept.ones⟩ each
  · exact each

end Design

namespace TermTree

variable {f g : Frame} {related : Vector Float f.rows → Vector Float g.rows → Prop}
  {covariances covariances' : List String}

/-- Group-level terms follow from the levels of their variables and of their factors. -/
theorem addGroups_related (kept : Design.IsKept related)
    (known : ∀ name, covariances.contains name = covariances'.contains name)
    {terms : List GroupTerm} (found : Design.AreRelated related f.predictors g.predictors
      (terms.flatMap fun term => term.terms.flatMap Term.names))
    (factors : ∀ term ∈ terms, EndAlike (fun x y => x.levels? = y.levels?) (f.column term.group)
      (g.column term.group)) (built : List Group) :
    addGroups f covariances terms built = addGroups g covariances' terms built := by
  induction terms generalizing built with
  | nil => rfl
  | cons term rest ih =>
    obtain ⟨factor, factors⟩ := List.forall_mem_cons.mp factors
    have own : Design.AreRelated related f.predictors g.predictors
        (term.terms.flatMap Term.names) := fun name mem =>
      found name (by rw [List.flatMap_cons]; exact List.mem_append_left _ mem)
    have others : Design.AreRelated related f.predictors g.predictors
        (rest.flatMap fun term => term.terms.flatMap Term.names) := fun name mem =>
      found name (by rw [List.flatMap_cons]; exact List.mem_append_right _ mem)
    simp only [addGroups]
    refine EndAlike.eq ((Design.groupMatrix_related kept own).bind fun xs ys each => ?_)
    rw [DesignColumn.labels_of_related each]
    generalize addGroups.firstTwice _ _ = twice
    cases twice with
    | some => exact .error _
    | none =>
      refine factor.lift.bind fun x y levels => ?_
      rw [levels, known]
      cases y.levels? with
      | some levels =>
        dsimp only
        rw [ih others factors]
        exact .refl (fun _ => rfl) _
      | none => exact .error _

/-- The terms of a model follow from the levels of its variables and of its grouping factors. -/
theorem build_related (kept : Design.IsKept related) {formula : Formula} {family : Family}
    {autocorrelation : Option Autocorrelation}
    (known : ∀ name, covariances.contains name = covariances'.contains name)
    (found : Design.AreRelated related f.predictors g.predictors formula.predictors)
    (factors : ∀ term ∈ formula.groupTerms, EndAlike (fun x y => x.levels? = y.levels?)
      (f.column term.group) (g.column term.group)) :
    build formula family autocorrelation f covariances =
      build formula family autocorrelation g covariances' := by
  have shared : Design.AreRelated related f.predictors g.predictors
      (formula.terms.flatMap Term.names) := fun name mem =>
    found name (List.mem_append_left _ mem)
  have varying : Design.AreRelated related f.predictors g.predictors
      (formula.groupTerms.flatMap fun term => term.terms.flatMap Term.names) := by
    intro name mem
    obtain ⟨term, inside, mem⟩ := List.mem_flatMap.mp mem
    exact found name (List.mem_append_right _
      (List.mem_flatMap.mpr ⟨term, inside, List.mem_append_left _ mem⟩))
  unfold build
  refine EndAlike.eq ((Design.matrix_related kept shared).bind fun xs ys each => ?_)
  rw [addGroups_related kept known varying factors, DesignColumn.labels_of_related each]
  exact .refl (fun _ => rfl) _

end TermTree

end Multilevel
