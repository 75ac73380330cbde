import Multilevel.Proofs.Model.Comparison

/-!
# What a specification is made of

Normalization accepts arguments and returns a specification exactly if each part of it is made of
its argument (`Specification.normalize_eq_ok_iff`). So it does not matter in which of the steps an
argument would have been refused. What is made so compares equal to itself, unless the value of a
fragment does not (`Specification.same_self_iff`).
-/
namespace Multilevel

/-- Knots that were checked stand under the names of the given ones, each a variable of the formula,
and hold finite numbers. -/
theorem checkAllKnots_spec {formula : Formula} {given knots : List (String × List Float)}
    (done : checkAllKnots formula given = .ok knots) :
    (knots.map Prod.fst).Perm (given.map Prod.fst) ∧
      (∀ name ∈ knots.map Prod.fst, name ∈ formula.names) ∧
      ∀ entry ∈ knots, ∀ x ∈ entry.2, x.isNaN = false := by
  rw [checkAllKnots] at done
  have steps : List.Forall₂ (fun (given : String × List Float) made => made.1 = given.1 ∧
      checkKnots formula given.1 given.2 = .ok made.2)
      (given.mergeSort fun a b => a.1 ≤ b.1) knots := by
    refine (mapM_eq_ok.mp done).imp fun given made step => ?_
    simp only [bind_eq_ok, pure_eq_ok] at step
    obtain ⟨values, checked, rfl⟩ := step
    exact ⟨rfl, checked⟩
  have each (entry) (mem : entry ∈ knots) :
      entry.1 ∈ formula.names ∧ ∀ x ∈ entry.2, x.isNaN = false := by
    obtain ⟨⟨name, values⟩, _, same, checked⟩ := exists_mem_of_forall₂ (List.Forall₂.flip steps) mem
    simp only [checkKnots, ↓throw_bind, ite_throw_eq_ok, pure_eq_ok] at checked
    obtain ⟨known, finite, made⟩ := checked
    simp only [Bool.not_eq_true, Bool.not_eq_false', List.contains_iff_mem, Bool.or_eq_false_iff,
      List.all_eq_true] at known finite
    refine ⟨same ▸ known, fun x inside => Number.isNaN_of_isFinite (finite.2 x ?_)⟩
    rw [← made] at inside
    exact (List.mergeSort_perm _ _).mem_iff.mp inside
  refine ⟨?_, fun name mem => ?_, fun entry mem => (each entry mem).2⟩
  · rw [Entries.keys_of_forall₂ (fun name given made => checkKnots formula name given = .ok made)
      steps]
    exact (List.mergeSort_perm _ _).map Prod.fst
  · obtain ⟨entry, inside, rfl⟩ := List.mem_map.mp mem
    exact (each entry inside).1

/-- Knots that are in order pass the check as they are. -/
theorem checkAllKnots_of_ordered {formula : Formula} {knots : List (String × List Float)}
    (names : knots.Pairwise fun first second => first.1 ≤ second.1)
    (each : ∀ entry ∈ knots, entry.1 ∈ formula.names ∧
      (entry.2.isEmpty || !entry.2.all Number.isFinite) = false ∧ entry.2.Pairwise (· ≤ ·)) :
    checkAllKnots formula knots = .ok knots := by
  have sorted : knots.mergeSort (fun a b => a.1 ≤ b.1) = knots :=
    List.mergeSort_of_pairwise (names.imp fun less => decide_eq_true less)
  rw [checkAllKnots, sorted, mapM_eq_ok, List.forall₂_same]
  rintro ⟨name, values⟩ mem
  obtain ⟨known, finite, ascending⟩ := each _ mem
  have same : values.mergeSort (fun x y => x ≤ y) = values :=
    List.mergeSort_of_pairwise (ascending.imp fun less => decide_eq_true less)
  simp only [bind_eq_ok, pure_eq_ok, checkKnots, ↓throw_bind, ite_throw_eq_ok]
  exact ⟨values, ⟨by simpa using known, by simpa using finite, same⟩, rfl⟩

/-- Which knots are given does not matter to the data, if all of them belong to the formula. -/
theorem Cleaning.update_knots {frame : Frame} {formula : Formula} {family : Family}
    {autocorrelation : Option Autocorrelation} {knots : List String}
    (known : ∀ name ∈ knots, name ∈ formula.names) :
    update frame formula family autocorrelation knots =
      update frame formula family autocorrelation [] := by
  have none : (knots.find? fun name => !formula.names.contains name) = none := by
    rw [List.find?_eq_none]
    intro name mem
    simpa using known name mem
  unfold update
  simp only [none, List.find?_nil]

/-- Checked matrices are symmetric. -/
theorem CovarianceSource.isSymmetric_of_checkAll {sources : List (String × CovarianceSource)}
    {tree : TermTree} {covariances : List (String × Covariance)}
    (done : checkAll sources tree = .ok covariances) :
    ∀ entry ∈ covariances, entry.2.isSymmetric = true := by
  intro entry mem
  rw [checkAll] at done
  obtain ⟨⟨name, source⟩, _, step⟩ := exists_of_mem_mapM done mem
  simp only [bind_eq_ok, pure_eq_ok] at step
  obtain ⟨m, checked, rfl⟩ := step
  unfold check at checked
  split at checked
  · simp only [↓refuse_bind, bind_eq_ok, ite_refuse_eq_ok] at checked
    obtain ⟨_, _, _, checked⟩ := checked
    split at checked
    · simp only [ite_refuse_eq_ok, pure_eq_ok] at checked
      obtain ⟨symmetric, _, _, rfl⟩ := checked
      simpa using symmetric
    · simp [refuse_ne_ok] at checked
  · simp [refuse_ne_ok] at checked

namespace Specification

/-- How the parts of a specification are made of arguments. -/
structure IsMadeOf (a : ModelArguments) (s : Specification) : Prop where
  /-- The formula is the one that the text reads as. -/
  formula : Formula.read a.formula = .ok s.formula
  /-- The family is the chosen one. -/
  family : a.family.resolve = .ok s.family
  /-- The structure of the residuals is the given one. -/
  autocorrelation : s.autocorrelation = a.autocorrelation
  /-- The given data suit the formula and are cleaned. -/
  data : ∃ raw, a.data.frame = .ok raw ∧
    validateFormula s.formula raw s.family s.autocorrelation = .ok () ∧
    (Cleaning.update raw s.formula s.family s.autocorrelation (a.knots.map Prod.fst)).outcome =
      .ok s.data
  /-- The choice about draws from the priors is the given one. -/
  samplePrior : a.samplePrior.resolve = .ok s.samplePrior
  /-- The knots are checked. -/
  knots : checkAllKnots s.formula a.knots = .ok s.knots
  /-- The terms are those of the cleaned data. -/
  terms : TermTree.build s.formula s.family s.autocorrelation s.data
    (a.covariances.map Prod.fst) = .ok s.terms
  /-- The covariance matrices are checked. -/
  covariances : CovarianceSource.checkAll a.covariances s.terms = .ok s.covariances
  /-- The priors are listed. -/
  givenPriors : a.prior.priors = .ok s.givenPriors
  /-- The priors stand in their places. -/
  priors : Priors.merge s.terms s.givenPriors s.samplePrior = .ok s.priors
  /-- The design is sparse if asked for. -/
  sparse : s.sparse = a.sparse
  /-- The fragments are collected. -/
  fragments : (Fragments.collect a.fragments a.functions).outcome = .ok s.fragments
  /-- The variables that are dropped follow from the tree and what is kept. -/
  exclude : s.exclude = s.terms.excluded a.keepEffects a.keepInternal

/-- Normalization returns a specification exactly if that is made of the arguments. -/
theorem normalize_eq_ok_iff {a : ModelArguments} {s : Specification} :
    (normalize a).outcome = .ok s ↔ IsMadeOf a s := by
  simp only [normalize, Reported.outcome_bind, Reported.outcome_pure, Reported.outcome_liftM,
    bind_eq_ok, mapError_eq_ok]
  constructor
  · rintro ⟨formula, read, family, chosen, raw, given, sample, asked, _, valid, data, cleaned,
      knots, knotted, terms, built, covariances, checked, givenPriors, listed, priors, placed,
      fragments, collected, made⟩
    obtain rfl := Except.ok.inj made
    exact ⟨read, chosen, rfl, ⟨raw, given, valid, cleaned⟩, asked, knotted, built, checked, listed,
      placed, rfl, collected, rfl⟩
  · rintro ⟨read, chosen, residuals, ⟨raw, given, valid, cleaned⟩, asked, knotted, built, checked,
      listed, placed, sparse, collected, exclude⟩
    rw [residuals] at valid cleaned built
    refine ⟨_, read, _, chosen, raw, given, _, asked, (), valid, _, cleaned, _, knotted, _, built,
      _, checked, _, listed, _, placed, _, collected, ?_⟩
    rw [← residuals, ← sparse, ← exclude]

/-- What normalization returns compares equal to itself exactly if the values of its fragments
do. -/
theorem same_self_iff {a : ModelArguments} {s : Specification} (made : IsMadeOf a s) :
    s.same s = .ok true ↔ s.fragments.AreComparable := by
  rw [same_iff]
  refine ⟨fun agree => Fragments.same_self_iff.mp agree.fragments, fun comparable => ?_⟩
  have terms : s.terms.same s.terms = true := by
    simp [TermTree.same, TermTree.sameAutocorrelation_self]
  exact ⟨rfl, rfl, s.data.same_self, terms, rfl, TermTree.sameAutocorrelation_self _,
    sameCovariances_self (CovarianceSource.isSymmetric_of_checkAll made.covariances), rfl,
    sameKnots_self (checkAllKnots_spec made.knots).2.2, Fragments.same_self_iff.mpr comparable,
    rfl, rfl⟩

/-- With other knots everything else is made the same. -/
theorem IsMadeOf.knotted {a : ModelArguments} {s : Specification} (made : IsMadeOf a s)
    {given knots : List (String × List Float)}
    (checked : checkAllKnots s.formula given = .ok knots) :
    IsMadeOf { a with knots := given } { s with knots } := by
  obtain ⟨raw, read, valid, updated⟩ := made.data
  obtain ⟨names, known, _⟩ := checkAllKnots_spec made.knots
  obtain ⟨names', known', _⟩ := checkAllKnots_spec checked
  rw [Cleaning.update_knots fun name mem => known name (names.mem_iff.mpr mem)] at updated
  refine { made with data := ⟨raw, read, valid, ?_⟩, knots := checked }
  rw [Cleaning.update_knots fun name mem => known' name (names'.mem_iff.mpr mem)]
  exact updated

end Specification

end Multilevel
