import Multilevel.Model.Specification
import Multilevel.Proofs.Formula.Reader
import Multilevel.Proofs.Model.Covariance

/-!
# What normalization guarantees

A specification that normalization returns has a named formula, clean data and a tree that was
built from both (`Specification.normalize_spec`). The rules after it say what follows for the
variables of the formula: each is a factor without missing cells or holds numbers.
-/
namespace Multilevel

/-- A formula that fits the data and the family does not predict the response by itself, and counts
trials exactly if the family does. -/
theorem validateFormula_eq_ok {formula : Formula} {frame : Frame} {family : Family}
    {autocorrelation : Option Autocorrelation}
    (done : validateFormula formula frame family autocorrelation = .ok ()) :
    formula.response ∉ formula.predictors ∧
      (formula.trials.isSome ↔ family.distribution.responseKind = .trials) := by
  unfold validateFormula at done
  simp only [↓refuse_bind, ite_refuse_eq_ok, List.contains_iff_mem, Bool.and_eq_true,
    decide_eq_true_eq, not_and, Option.isNone_iff_eq_none] at done
  obtain ⟨_, response, needed, refused, _⟩ := done
  refine ⟨response, fun given => ?_, fun kind => ?_⟩
  · by_contra other
    exact refused other given
  · exact Option.isSome_iff_ne_none.mpr (needed kind)

/-- Residuals have a structure only where the response may be any number. -/
theorem responseKind_of_validateFormula {formula : Formula} {frame : Frame} {family : Family}
    {autocorrelation : Option Autocorrelation}
    (done : validateFormula formula frame family autocorrelation = .ok ())
    (structured : autocorrelation.isSome = true) : family.distribution.responseKind = .real := by
  unfold validateFormula at done
  simp only [↓refuse_bind, ite_refuse_eq_ok, structured, Bool.true_and, Bool.not_eq_true',
    Bool.not_eq_false, Bool.and_eq_true, Bool.or_eq_true, decide_eq_true_eq] at done
  obtain ⟨_, _, _, _, suited, _⟩ := done
  rcases suited with ⟨gaussian | student, _⟩
  · rw [gaussian]
    rfl
  · rw [student]
    rfl

/-- Knots that were checked are never none. -/
theorem checkAllKnots_eq_ok {formula : Formula} {given knots : List (String × List Float)}
    (done : checkAllKnots formula given = .ok knots) :
    ∀ entry ∈ knots, entry.2 ≠ [] := by
  intro entry mem
  rw [checkAllKnots] at done
  obtain ⟨⟨name, values⟩, _, checked⟩ := exists_of_mem_mapM done mem
  simp only [bind_eq_ok, pure_eq_ok, checkKnots, ↓throw_bind, ite_throw_eq_ok] at checked
  obtain ⟨sorted, ⟨_, some, rfl⟩, rfl⟩ := checked
  intro none
  have empty := (List.mergeSort_perm values fun x y => decide (x ≤ y)).length_eq
  rw [show values.mergeSort (fun x y => decide (x ≤ y)) = [] from none, List.length_nil] at empty
  simp [List.length_eq_zero_iff.mp empty.symm] at some

/-- A variable is a factor of the design exactly if its column is one. -/
theorem Column.predictor_eq_factor {rows : Nat} {column : Column rows} {levels : List String}
    {codes : Vector (Option (Fin levels.length)) rows} :
    column.predictor = .ok (.factor levels codes) ↔ column = .factor levels codes := by
  constructor
  · intro here
    unfold predictor at here
    split at here
    · cases here
      rfl
    · simp [map_eq_ok] at here
  · rintro rfl
    rfl

namespace Specification

/-- What holds of a specification that normalization returns. -/
structure IsNormal (a : ModelArguments) (s : Specification) : Prop where
  /-- The formula has named terms. -/
  named : s.formula.IsNamed
  /-- The data are clean. -/
  clean : ∃ raw origin, a.data.frame = .ok raw ∧
    Cleaning.Cleaned s.formula s.family s.autocorrelation raw s.data origin
  /-- The response does not predict itself. -/
  response : s.formula.response ∉ s.formula.predictors
  /-- Trials are counted exactly if the family does. -/
  trials : s.formula.trials.isSome ↔ s.family.distribution.responseKind = .trials
  /-- The tree is that of the formula, the family and the residuals. -/
  tree : s.terms.formula = s.formula ∧ s.terms.family = s.family ∧
    s.terms.autocorrelation = s.autocorrelation
  /-- The residuals are those of the arguments. -/
  autocorrelation : s.autocorrelation = a.autocorrelation
  /-- The shared coefficients are the labels of the design. -/
  design : ∃ columns,
    Design.matrix s.data.predictors s.formula.intercept s.formula.terms = .ok columns ∧
      s.terms.population = columns.map DesignColumn.label
  /-- The groups are those of the formula. -/
  groups : TermTree.AreBuilt s.data (a.covariances.map Prod.fst) s.formula.groupTerms s.terms.groups
  /-- A group whose covariance is known has a matrix of its size with a Cholesky factor. -/
  covariances : ∀ group ∈ s.terms.groups, group.hasCovariance = true →
    ∃ m rows, s.covariances.lookup group.factor = some m ∧ m.size = group.levels.length ∧
      m.cholesky = some rows
  /-- Knots are never none. -/
  knots : ∀ entry ∈ s.knots, entry.2 ≠ []
  /-- The variables that are dropped follow from the tree and what the arguments keep. -/
  exclude : s.exclude = s.terms.excluded a.keepEffects a.keepInternal

/-- What normalization returns is normal. -/
theorem normalize_spec {a : ModelArguments} {s : Specification}
    (done : (normalize a).outcome = .ok s) : IsNormal a s := by
  simp only [normalize, Reported.outcome_bind, Reported.outcome_pure, Reported.outcome_liftM,
    bind_eq_ok, mapError_eq_ok] at done
  obtain ⟨formula, read, family, _, raw, given, sample, _, _, valid, data, cleaned, knots, knotted,
    terms, built, covariances, checked, _, _, priors, _, fragments, _, made⟩ := done
  obtain rfl := Except.ok.inj made
  obtain ⟨response, trials⟩ := validateFormula_eq_ok valid
  obtain ⟨origin, clean⟩ := Cleaning.update_spec cleaned
  obtain ⟨tree, design, groups⟩ := TermTree.build_eq_ok built
  refine ⟨Formula.read_eq_ok read, ⟨raw, origin, given, clean⟩, response, trials, tree, rfl,
    design, groups, ?_, checkAllKnots_eq_ok knotted, rfl⟩
  intro group mem known
  obtain ⟨names, each⟩ := CovarianceSource.checkAll_eq_ok checked
  have listed : group.factor ∈ covariances.map Prod.fst := by
    rw [names, ← List.contains_iff_mem, ← (groups.built group mem).covariance]
    exact known
  obtain ⟨m, found⟩ := Entries.exists_lookup_iff.mpr listed
  obtain ⟨source, passed⟩ := each group.factor m found
  obtain ⟨⟨other, inside, same, size⟩, rows, factor⟩ := CovarianceSource.check_eq_ok passed
  refine ⟨m, rows, found, ?_, factor⟩
  -- Both groups have the levels of the same column.
  obtain ⟨column, here, levels⟩ := (groups.built group mem).levels
  obtain ⟨column', there, levels'⟩ := (groups.built other inside).levels
  rw [same, here] at there
  obtain rfl := Option.some.inj there
  rw [size, Option.some.inj (levels'.symm.trans levels)]

/-- A small model: counts with a slope that varies with a group. -/
def sample : ModelArguments where
  formula := "y ~ x + (1 + x | g)"
  data := .table ⟨3, [("y", .int ⟨#[2, 3, 5], rfl⟩), ("x", .int ⟨#[0, 1, 4], rfl⟩),
    ("g", .text ⟨#[some "a", some "b", some "a"], rfl⟩)]⟩

/-- The small model is accepted. -/
theorem exists_normalize_sample : ∃ s, (normalize sample).outcome = .ok s :=
  exists_of_isOk (by decide +kernel)

namespace IsNormal

variable {a : ModelArguments} {s : Specification}

/-- There are observations. -/
theorem rows_pos (normal : IsNormal a s) : 0 < s.data.rows := by
  obtain ⟨raw, origin, _, clean⟩ := normal.clean
  exact clean.rows

/-- The data have every column that the model needs. -/
theorem exists_column (normal : IsNormal a s) {name : String}
    (needed : name ∈ Cleaning.neededColumns s.formula s.autocorrelation) :
    ∃ column, s.data.column? name = some column := by
  obtain ⟨raw, origin, _, clean⟩ := normal.clean
  rw [← clean.names] at needed
  exact Entries.exists_lookup_iff.mpr needed

/-- The outcome holds numbers. -/
theorem isNumeric_outcome (normal : IsNormal a s) {name : String} {column : Column s.data.rows}
    (outcome : Cleaning.IsOutcome s.formula name) (found : s.data.column? name = some column) :
    column.isNumeric = true := by
  obtain ⟨raw, origin, _, clean⟩ := normal.clean
  exact clean.isNumeric_outcome normal.trials outcome found

/-- Every column holds numbers or is a factor. -/
theorem taken (normal : IsNormal a s) {name : String} {column : Column s.data.rows}
    (found : s.data.column? name = some column) :
    column.isNumeric = true ∨ ∃ levels, column.IsSpanned levels := by
  obtain ⟨raw, origin, _, clean⟩ := normal.clean
  exact clean.isTaken normal.trials name column found

/-- A factor has distinct levels, each of which occurs. -/
theorem isSpanned (normal : IsNormal a s) {name : String} {column : Column s.data.rows}
    {levels : List String} (found : s.data.column? name = some column)
    (factor : column.levels? = some levels) : column.IsSpanned levels :=
  Column.IsTaken.isSpanned (normal.taken found) factor

/-- Every cell of a factor has one of its levels. -/
theorem exists_level (normal : IsNormal a s) {name : String} {column : Column s.data.rows}
    {levels : List String} {codes : Vector (Option (Fin levels.length)) s.data.rows}
    (found : s.data.column? name = some column) (factor : column = .factor levels codes)
    (row : Fin s.data.rows) : ∃ level, codes.get row = some level := by
  obtain ⟨raw, origin, _, clean⟩ := normal.clean
  have present := clean.complete found row
  subst factor
  simp only [Column.isMissing, Option.isNone_eq_false_iff] at present
  exact Option.isSome_iff_exists.mp present

/-- Every factor of a design has a level. -/
theorem hasLevels (normal : IsNormal a s) : Design.HasLevels s.data.predictors := by
  intro name levels codes here
  simp only [Frame.predictors, bind_eq_ok, Frame.column_eq_ok] at here
  obtain ⟨column, found, here⟩ := here
  have factor := Column.predictor_eq_factor.mp here
  obtain ⟨level, _⟩ := normal.exists_level found factor ⟨0, normal.rows_pos⟩
  rintro rfl
  exact level.elim0

end IsNormal

end Specification

end Multilevel
