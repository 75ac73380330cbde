import Multilevel.Proofs.Model.Normalize
import Multilevel.Proofs.Model.OwnErrors
import Multilevel.Proofs.Program.Same

/-!
# Data of one shape

What a model is made of its data follows from the kinds of their columns and the levels of their
factors: two tables of one shape make specifications that differ in the data alone
(`Specification.eq_of_shape`), and so have one program.
-/
namespace Multilevel

/-- Whether two tables have the same kinds of columns under some names, numbers or factors, and the
same lists of levels. -/
def Frame.HaveOneShape (f g : Frame) (names : List String) : Prop :=
  ∀ name ∈ names, f.levelsOf? name = g.levelsOf? name

/-- Only the names of the columns matter. -/
theorem Frame.haveOneShape_of_names {f g : Frame}
    (same : ∀ name ∈ f.names ++ g.names, f.levelsOf? name = g.levelsOf? name)
    (names : List String) : f.HaveOneShape g names := by
  have unknown (h : Frame) {name : String} (absent : name ∉ h.names) : h.levelsOf? name = none := by
    have lost : h.column? name = none := by
      by_contra other
      exact absent (Entries.exists_lookup_iff.mp (Option.ne_none_iff_exists'.mp other))
    rw [levelsOf?, lost]
    rfl
  intro name _
  by_cases here : name ∈ f.names ++ g.names
  · exact same name here
  · rw [List.mem_append, not_or] at here
    rw [unknown f here.1, unknown g here.2]

namespace Design

/-- Any numbers count as related: only labels and levels matter. -/
def AnyNumbers {m n : Nat} (_ : Vector Float m) (_ : Vector Float n) : Prop := True

/-- All products of numbers are numbers. -/
theorem isKept_anyNumbers {m n : Nat} : IsKept (AnyNumbers (m := m) (n := n)) :=
  ⟨trivial, fun _ _ => trivial⟩

/-- Variables that a model takes from tables of one shape have the same levels. -/
theorem areRelated_of_shape {f g : Frame} {names : List String} (left : f.IsTaken)
    (right : g.IsTaken) (shape : f.HaveOneShape g names)
    (present : ∀ name ∈ names, name ∈ f.names) (present' : ∀ name ∈ names, name ∈ g.names) :
    AreRelated AnyNumbers f.predictors g.predictors names := by
  intro name mem
  obtain ⟨p, found⟩ := TermTree.areFound_predictors left present name mem
  obtain ⟨q, found'⟩ := TermTree.areFound_predictors right present' name mem
  have levels := Frame.hasKinds_levelsOf? f name p found
  have levels' := Frame.hasKinds_levelsOf? g name q found'
  have same : p.levels? = q.levels? := levels.trans ((shape name mem).trans levels'.symm)
  rw [found, found']
  cases p with
  | numeric => cases q with
    | numeric => exact .ok (.numeric trivial)
    | factor => cases same
  | factor => cases q with
    | numeric => cases same
    | factor =>
      obtain rfl := Option.some.inj same
      exact .ok (.factor fun _ => trivial)

end Design

namespace Specification

variable {a : ModelArguments} {data : DataSource} {s t : Specification}

/-- Data of one shape have the same terms. -/
theorem build_of_shape (left : IsNormal a s) (right : IsNormal { a with data } t)
    (formula : t.formula = s.formula) (residuals : t.autocorrelation = s.autocorrelation)
    (shape : s.data.HaveOneShape t.data
      (Cleaning.neededColumns s.formula s.autocorrelation)) (names : List String) :
    TermTree.build s.formula s.family s.autocorrelation s.data names =
      TermTree.build s.formula s.family s.autocorrelation t.data names := by
  have needed (name : String) (mem : name ∈ s.formula.predictors) :
      name ∈ Cleaning.neededColumns s.formula s.autocorrelation :=
    List.mem_eraseDups.mpr (List.mem_append_left _ (Formula.mem_names_of_predictor mem))
  have found (name : String) (mem : name ∈ s.formula.predictors) :
      ∃ column, s.data.column? name = some column := left.exists_column (needed name mem)
  have found' (name : String) (mem : name ∈ s.formula.predictors) :
      ∃ column, t.data.column? name = some column :=
    right.exists_column (by rw [formula, residuals]; exact needed name mem)
  refine TermTree.build_related Design.isKept_anyNumbers (fun _ => rfl)
    (Design.areRelated_of_shape left.isTaken right.isTaken
      (fun name mem => shape name (needed name mem))
      (fun name mem => Entries.exists_lookup_iff.mp (found name mem))
      fun name mem => Entries.exists_lookup_iff.mp (found' name mem)) fun term mem => ?_
  have grouping : term.group ∈ s.formula.predictors := List.mem_append_right _
    (List.mem_flatMap.mpr ⟨term, mem, List.mem_append_right _ (List.mem_singleton.mpr rfl)⟩)
  obtain ⟨column, here⟩ := found _ grouping
  obtain ⟨column', there⟩ := found' _ grouping
  have levels := shape _ (needed _ grouping)
  rw [Frame.levelsOf?, Frame.levelsOf?, here, there] at levels
  rw [Frame.column_eq_ok.mpr here, Frame.column_eq_ok.mpr there]
  exact .ok levels

/-- Specifications that the same arguments make of data of one shape differ in the data alone. -/
theorem eq_of_shape (left : (normalize a).outcome = .ok s)
    (right : (normalize { a with data }).outcome = .ok t)
    (shape : s.data.HaveOneShape t.data
      (Cleaning.neededColumns s.formula s.autocorrelation)) : t = { s with data := t.data } := by
  have made := normalize_eq_ok_iff.mp left
  have made' := normalize_eq_ok_iff.mp right
  have normal := normalize_spec left
  have normal' := normalize_spec right
  have formula : t.formula = s.formula :=
    Except.ok.inj (made'.formula.symm.trans made.formula)
  have family : t.family = s.family := Except.ok.inj (made'.family.symm.trans made.family)
  have residuals : t.autocorrelation = s.autocorrelation :=
    made'.autocorrelation.trans made.autocorrelation.symm
  have samplePrior : t.samplePrior = s.samplePrior :=
    Except.ok.inj (made'.samplePrior.symm.trans made.samplePrior)
  have knots : t.knots = s.knots := by
    have checked := made'.knots
    rw [formula] at checked
    exact Except.ok.inj (checked.symm.trans made.knots)
  have terms : t.terms = s.terms := by
    have built := made'.terms
    rw [formula, family, residuals,
      ← build_of_shape normal normal' formula residuals shape] at built
    exact Except.ok.inj (built.symm.trans made.terms)
  have covariances : t.covariances = s.covariances := by
    have checked := made'.covariances
    rw [terms] at checked
    exact Except.ok.inj (checked.symm.trans made.covariances)
  have givenPriors : t.givenPriors = s.givenPriors :=
    Except.ok.inj (made'.givenPriors.symm.trans made.givenPriors)
  have priors : t.priors = s.priors := by
    have placed := made'.priors
    rw [terms, givenPriors, samplePrior] at placed
    exact Except.ok.inj (placed.symm.trans made.priors)
  have sparse : t.sparse = s.sparse := made'.sparse.trans made.sparse.symm
  have fragments : t.fragments = s.fragments :=
    Except.ok.inj (made'.fragments.symm.trans made.fragments)
  have exclude : t.exclude = s.exclude := by
    rw [made'.exclude, made.exclude, terms]
  have fields : t = ⟨t.formula, t.family, t.data, t.terms, t.priors, t.givenPriors,
      t.autocorrelation, t.covariances, t.sparse, t.knots, t.fragments, t.samplePrior,
      t.exclude⟩ := rfl
  rw [fields, formula, family, residuals, samplePrior, knots, terms, covariances, givenPriors,
    priors, sparse, fragments, exclude]

/-- So they have one program. -/
theorem code_of_shape (left : (normalize a).outcome = .ok s)
    (right : (normalize { a with data }).outcome = .ok t)
    (shape : s.data.HaveOneShape t.data
      (Cleaning.neededColumns s.formula s.autocorrelation)) : t.code = s.code := by
  rw [eq_of_shape left right shape]
  rfl

end Specification

end Multilevel
