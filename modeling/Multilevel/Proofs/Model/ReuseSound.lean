import Multilevel.Proofs.Model.Reuse
import Multilevel.Proofs.Program.Same

/-!
# Models made anew from the arguments beside a fit

Arguments that pass the check beside a fit are accepted in the place of those that its model was
made of, and make a model that compares equal, if their data list the levels of factors in the order
of the model (`Specification.reuse_sound`). The check compares tables, to which that order does not
matter; to the coefficients it does (`Specification.relevelled_differs`).
-/
namespace Multilevel

section Residuals

variable {p q : Option Autocorrelation}

/-- The data of a model follow from the columns that the residuals depend on. -/
theorem Cleaning.update_congr {frame : Frame} {formula : Formula} {family : Family}
    {knots : List String} (same : TermTree.sameAutocorrelation p q = true) :
    update frame formula family p knots = update frame formula family q knots := by
  obtain ⟨rfl, rfl⟩ | ⟨a, b, rfl, rfl, time, group⟩ := TermTree.columns_of_sameAutocorrelation same
  · rfl
  · have ordered : a.orderRows = b.orderRows := by
      funext frame
      rw [Autocorrelation.orderRows, Autocorrelation.orderRows, Autocorrelation.keys,
        Autocorrelation.keys, time, group]
    simp only [update, neededColumns, groupingColumns, Autocorrelation.names, time, group, ordered]

/-- So do the columns that it needs. -/
theorem Cleaning.neededColumns_congr {formula : Formula}
    (same : TermTree.sameAutocorrelation p q = true) :
    neededColumns formula p = neededColumns formula q := by
  obtain ⟨rfl, rfl⟩ | ⟨a, b, rfl, rfl, time, group⟩ := TermTree.columns_of_sameAutocorrelation same
  · rfl
  · simp only [neededColumns, Autocorrelation.names, time, group]

end Residuals

/-- A table that is cleaned has the columns that the model needs. -/
theorem Cleaning.mem_names_of_update {raw cleaned : Frame} {formula : Formula} {family : Family}
    {autocorrelation : Option Autocorrelation} {knots : List String}
    (done : (update raw formula family autocorrelation knots).outcome = .ok cleaned) :
    ∀ name ∈ neededColumns formula autocorrelation, name ∈ raw.names := by
  unfold update at done
  rw [Reported.outcome_bind, Reported.outcome_liftM, bind_eq_ok] at done
  obtain ⟨needed, selected, _⟩ := done
  obtain ⟨columns, _, names, given⟩ := Frame.select_eq_ok (mapError_eq_ok.mp selected)
  intro name mem
  rw [← names] at mem
  obtain ⟨column, found⟩ := Entries.exists_lookup_iff.mpr mem
  exact Entries.exists_lookup_iff.mp ⟨column, given name column found⟩

/-- A formula that fits some data fits all data that have the columns it needs. -/
theorem validateFormula_congr {formula : Formula} {raw other : Frame} {family : Family}
    {p q : Option Autocorrelation} (structured : p.isSome = q.isSome)
    (named : ∀ name ∈ Cleaning.neededColumns formula q, name ∈ other.names)
    (valid : validateFormula formula raw family p = .ok ()) :
    validateFormula formula other family q = .ok () := by
  unfold validateFormula at valid ⊢
  simp only [↓refuse_bind, ite_refuse_eq_ok] at valid ⊢
  obtain ⟨_, response, needed, refused, suited⟩ := valid
  refine ⟨?_, response, needed, refused, structured ▸ suited⟩
  have all : ((Cleaning.neededColumns formula q).filter fun name => !other.names.contains name) =
      [] := by
    rw [List.filter_eq_nil_iff]
    intro name mem
    simpa using named name mem
  show ¬(!(List.filter _ (Cleaning.neededColumns formula q)).isEmpty) = true
  rw [all]
  simp

namespace TermTree

open Multilevel.Frame

variable {rows : Nat} {columns columns' : List (String × Column rows)} {names names' : List String}

/-- Tables that compare equal and list levels in the same order have the same terms. -/
theorem build_congr (agree : ColumnsAgree columns columns') (left : IsTaken ⟨rows, columns⟩)
    (right : IsTaken ⟨rows, columns'⟩) (known : ∀ name, names.contains name = names'.contains name)
    {formula : Formula} (levels : ∀ name ∈ formula.predictors,
      levelsOf? ⟨rows, columns⟩ name = levelsOf? ⟨rows, columns'⟩ name) {family : Family}
    {p q : Option Autocorrelation} {tree : TermTree}
    (done : build formula family p ⟨rows, columns⟩ names = .ok tree) :
    build formula family q ⟨rows, columns'⟩ names' = .ok { tree with autocorrelation := q } := by
  have found : Design.FindAlike (predictors ⟨rows, columns⟩) (predictors ⟨rows, columns'⟩)
      formula.predictors := fun name mem => predictors_alike agree left right (levels name mem)
  have factors (term) (mem : term ∈ formula.groupTerms) :
      EndAlike (fun x y : Column rows => x.levels? = y.levels?)
        (column ⟨rows, columns⟩ term.group) (column ⟨rows, columns'⟩ term.group) := by
    have factor := levels term.group (List.mem_append_right _
      (List.mem_flatMap.mpr ⟨term, mem, List.mem_append_right _ (List.mem_singleton.mpr rfl)⟩))
    refine (agree.column term.group).reached.imp fun x y ⟨_, here, there⟩ => ?_
    rwa [levelsOf?, levelsOf?, column_eq_ok.mp here, column_eq_ok.mp there] at factor
  have same : build formula family p ⟨rows, columns'⟩ names' = .ok tree :=
    (build_related (f := ⟨rows, columns⟩) (g := ⟨rows, columns'⟩) Design.isKept_vectorsAlike known
      found.related factors).symm.trans done
  simp only [build, bind_eq_ok, pure_eq_ok] at same ⊢
  obtain ⟨xs, design, groups, added, rfl⟩ := same
  exact ⟨xs, design, groups, added, rfl⟩

end TermTree

section Terms

variable {tree : TermTree} {q : Option Autocorrelation}

/-- The checks of covariance matrices do not depend on the residuals. -/
theorem CovarianceSource.checkAll_residuals (sources : List (String × CovarianceSource)) :
    checkAll sources { tree with autocorrelation := q } = checkAll sources tree := rfl

/-- Nor do the variables that are dropped from the output. -/
theorem TermTree.excluded_residuals (keepEffects keepInternal : Bool) :
    excluded { tree with autocorrelation := q } keepEffects keepInternal =
      excluded tree keepEffects keepInternal := rfl

/-- The priors depend on whether the residuals have a structure. -/
theorem Priors.merge_residuals (structured : tree.autocorrelation.isSome = q.isSome)
    (given : List Prior) (sample : SamplePrior) :
    merge { tree with autocorrelation := q } given sample = merge tree given sample := by
  have slots : slots { tree with autocorrelation := q } = slots tree := by
    rw [Priors.slots, Priors.slots, TermTree.auxiliaries, TermTree.auxiliaries, structured]
    rfl
  rw [merge, merge, defaults, defaults, slots]
  rfl

end Terms

namespace Specification

/-- What holds of arguments of a model that describe a specification, but for the order of levels:
they are accepted one by one and compare equal to its parts. -/
structure IsDescribedAnewBy (s : Specification) (b : ModelArguments) (raw cleaned : Frame)
    (fragments : Fragments) : Prop where
  /-- The formula is that of the model. -/
  formula : Formula.read b.formula = .ok s.formula
  /-- So is the family. -/
  family : b.family.resolve = .ok s.family
  /-- The structure of the residuals compares equal. -/
  autocorrelation : TermTree.sameAutocorrelation s.autocorrelation b.autocorrelation = true
  /-- The data are a table. -/
  read : b.data.frame = .ok raw
  /-- It can be cleaned. -/
  updated : (Cleaning.update raw s.formula s.family s.autocorrelation []).outcome = .ok cleaned
  /-- The cleaned data compare equal. -/
  data : s.data.same cleaned = true
  /-- The choice about draws from the priors is that of the model. -/
  samplePrior : b.samplePrior.resolve = .ok s.samplePrior
  /-- The knots compare equal. -/
  knots : ∃ knots, checkAllKnots s.formula b.knots = .ok knots ∧ sameKnots s.knots knots = true
  /-- The known covariances compare equal. -/
  covariances : ∃ covariances, CovarianceSource.checkAll b.covariances s.terms = .ok covariances ∧
    sameCovariances s.covariances covariances = true
  /-- The priors are those that were given for the model. -/
  givenPriors : b.prior.priors = .ok s.givenPriors
  /-- The design is sparse as that of the model. -/
  sparse : b.sparse = s.sparse
  /-- The fragments are collected. -/
  fragments : (Fragments.collect b.fragments b.functions).outcome = .ok fragments

variable {a b : ModelArguments} {s : Specification} {raw cleaned : Frame} {fragments : Fragments}

namespace IsDescribedAnewBy

/-- The cleaned data are those of every model that is made from such arguments. -/
theorem update_eq (described : s.IsDescribedAnewBy b raw cleaned fragments) :
    (Cleaning.update raw s.formula s.family b.autocorrelation (b.knots.map Prod.fst)).outcome =
      .ok cleaned := by
  obtain ⟨knots, checked, _⟩ := described.knots
  obtain ⟨names, known, _⟩ := checkAllKnots_spec checked
  rw [Cleaning.update_knots fun name mem => known name (names.mem_iff.mpr mem),
    ← Cleaning.update_congr described.autocorrelation, described.updated]

/-- The covariances of the same factors are known. -/
theorem contains_eq (described : s.IsDescribedAnewBy b raw cleaned fragments) (made : IsMadeOf a s)
    (name : String) :
    (a.covariances.map Prod.fst).contains name = (b.covariances.map Prod.fst).contains name := by
  obtain ⟨covariances, checked, same⟩ := described.covariances
  have names := (sameCovariances_iff.mp same).keys
  rw [Bool.eq_iff_iff, List.contains_iff_mem, List.contains_iff_mem,
    ← (CovarianceSource.checkAll_eq_ok made.covariances).1 name,
    ← (CovarianceSource.checkAll_eq_ok checked).1 name, names]

/-- The terms are made anew from such arguments if the data list the levels of factors in the order
of the model. -/
theorem build_eq (described : s.IsDescribedAnewBy b raw cleaned fragments) (made : IsMadeOf a s)
    (levels : ∀ name ∈ s.formula.predictors, cleaned.levelsOf? name = s.data.levelsOf? name) :
    TermTree.build s.formula s.family b.autocorrelation cleaned (b.covariances.map Prod.fst) =
      .ok { s.terms with autocorrelation := b.autocorrelation } := by
  have normal := normalize_spec (normalize_eq_ok_iff.mpr made)
  obtain ⟨origin, clean⟩ := Cleaning.update_spec described.updated
  have right := clean.isTaken normal.trials
  have left := normal.isTaken
  have built := made.terms
  obtain ⟨columns, rfl, agree⟩ := Frame.same_iff.mp described.data
  exact TermTree.build_congr agree left right (described.contains_eq made)
    (fun name mem => (levels name mem).symm) built

/-- A model is made anew from such arguments, and compares equal, if the data list the levels of
factors in the order of the model and the fragments compare equal. -/
theorem exists_made (described : s.IsDescribedAnewBy b raw cleaned fragments)
    (made : IsMadeOf a s) (effects : b.keepEffects = a.keepEffects)
    (internal : b.keepInternal = a.keepInternal)
    (levels : ∀ name ∈ s.formula.predictors, cleaned.levelsOf? name = s.data.levelsOf? name)
    (same : s.fragments.same fragments = .ok true) :
    ∃ t, IsMadeOf b t ∧ s.same t = .ok true := by
  obtain ⟨knots, knotted, knotsSame⟩ := described.knots
  obtain ⟨covariances, checked, covariancesSame⟩ := described.covariances
  obtain ⟨raw', _, valid, _⟩ := made.data
  have structured := TermTree.isSome_of_sameAutocorrelation described.autocorrelation
  have tree := (TermTree.build_eq_ok made.terms).1
  have named : ∀ name ∈ Cleaning.neededColumns s.formula b.autocorrelation, name ∈ raw.names := by
    rw [← Cleaning.neededColumns_congr described.autocorrelation]
    exact Cleaning.mem_names_of_update described.updated
  refine ⟨{ s with
    data := cleaned
    terms := { s.terms with autocorrelation := b.autocorrelation }
    autocorrelation := b.autocorrelation
    covariances, knots, fragments }, ⟨described.formula, described.family, rfl,
      ⟨raw, described.read, validateFormula_congr structured named valid, described.update_eq⟩,
      described.samplePrior, knotted, described.build_eq made levels,
      (CovarianceSource.checkAll_residuals _).trans checked, described.givenPriors, ?_,
      described.sparse.symm, described.fragments, ?_⟩, ?_⟩
  · rw [← tree.2.2] at structured
    exact (Priors.merge_residuals structured _ _).trans made.priors
  · rw [effects, internal, TermTree.excluded_residuals]
    exact made.exclude
  · have terms : s.terms.same { s.terms with autocorrelation := b.autocorrelation } = true := by
      simp [TermTree.same, tree.2.2, described.autocorrelation]
    exact same_iff.mpr ⟨rfl, rfl, described.data, terms, rfl, described.autocorrelation,
      covariancesSame, rfl, knotsSame, same, rfl, rfl⟩

/-- If a model that compares equal is made from such arguments, the data list the levels of factors
in the order of the model and the fragments compare equal. -/
theorem of_made (described : s.IsDescribedAnewBy b raw cleaned fragments)
    (made : IsMadeOf a s) {t : Specification} (again : IsMadeOf b t) (same : s.same t = .ok true) :
    (∀ name ∈ s.formula.predictors, cleaned.levelsOf? name = s.data.levelsOf? name) ∧
      s.fragments.same fragments = .ok true := by
  have agree := same_iff.mp same
  obtain ⟨raw', given, _, updated⟩ := again.data
  obtain rfl := Except.ok.inj (described.read.symm.trans given)
  rw [← agree.formula, ← agree.family, again.autocorrelation, described.update_eq] at updated
  obtain rfl := Except.ok.inj updated
  obtain rfl := Except.ok.inj (described.fragments.symm.trans again.fragments)
  refine ⟨fun name used => ?_, agree.fragments⟩
  exact (agree.levelsOf?_eq (normalize_spec (normalize_eq_ok_iff.mpr made))
    (normalize_spec (normalize_eq_ok_iff.mpr again)) used).symm

end IsDescribedAnewBy

end Specification

/-- The arguments of a model with those beside a fit in their place. Fragments and functions are
replaced together. -/
def ReuseArguments.over (w : ReuseArguments) (a : ModelArguments) : ModelArguments where
  formula := w.formula.getD a.formula
  data := w.data.getD a.data
  family := w.family.getD a.family
  prior := w.prior.getD a.prior
  autocorrelation := w.autocorrelation.or a.autocorrelation
  covariances := w.covariances.getD a.covariances
  samplePrior := w.samplePrior.getD a.samplePrior
  sparse := w.sparse.getD a.sparse
  knots := w.knots.getD a.knots
  fragments := if w.fragments.isSome || w.functions.isSome then w.fragments else a.fragments
  functions := if w.fragments.isSome || w.functions.isSome then w.functions else a.functions
  keepEffects := a.keepEffects
  keepInternal := a.keepInternal

/-- Whether no key stands twice in any record among the values of fragments. -/
def ReuseArguments.HasDistinctKeys (w : ReuseArguments) : Prop :=
  ∀ given, w.fragments = some given → ∀ f ∈ given.items, f.value.HasDistinctKeys

namespace Specification

/-- Whether data beside a fit list the levels of each factor of the formula in the order of the
model. -/
def KeepsLevels (s : Specification) (w : ReuseArguments) : Prop :=
  ∀ source raw cleaned, w.data = some source → source.frame = .ok raw →
    (Cleaning.update raw s.formula s.family s.autocorrelation (s.knots.map Prod.fst)).outcome =
      .ok cleaned →
    ∀ name ∈ s.formula.predictors, cleaned.levelsOf? name = s.data.levelsOf? name

variable {a : ModelArguments} {s : Specification} {w : ReuseArguments}

/-- What holds of an argument beside a fit, or else of the one that it would replace. -/
theorem holds_getD {α : Type} {given : Option α} {own : α} (holds : α → Prop)
    (each : ∀ x, given = some x → holds x) (rest : holds own) : holds (given.getD own) := by
  cases given with
  | none => exact rest
  | some x => exact each x rfl

/-- The value that one agrees with. -/
theorem eq_ok_of_beq {α ε : Type} [BEq α] [LawfulBEq α] {x : Except ε α} {own : α}
    (agrees : ∃ value, x = .ok value ∧ (value == own) = true) : x = .ok own := by
  obtain ⟨value, done, same⟩ := agrees
  rw [done, eq_of_beq same]

/-- The data in the place of those that a model was made of compare equal. -/
theorem IsDescribedBy.data_anew (described : s.IsDescribedBy w) (made : IsMadeOf a s) :
    ∃ raw cleaned, (w.over a).data.frame = .ok raw ∧
      (Cleaning.update raw s.formula s.family s.autocorrelation []).outcome = .ok cleaned ∧
      s.data.same cleaned = true ∧ (s.KeepsLevels w ↔
        ∀ name ∈ s.formula.predictors, cleaned.levelsOf? name = s.data.levelsOf? name) := by
  obtain ⟨names, known, _⟩ := checkAllKnots_spec made.knots
  cases given : w.data with
  | none =>
    obtain ⟨raw, read, _, updated⟩ := made.data
    rw [Cleaning.update_knots fun name mem => known name (names.mem_iff.mpr mem)] at updated
    refine ⟨raw, s.data, ?_, updated, s.data.same_self, iff_of_true ?_ fun _ _ => rfl⟩
    · rw [ReuseArguments.over, given, Option.getD_none, read]
    · intro source _ _ found
      rw [given] at found
      cases found
  | some source =>
    obtain ⟨raw, cleaned, read, updated, same⟩ := described.data source given
    refine ⟨raw, cleaned, ?_, Cleaning.update_knots known ▸ updated, Frame.same_symm same,
      fun keeps => keeps source raw cleaned given read updated, ?_⟩
    · rw [ReuseArguments.over, given, Option.getD_some, read]
    · intro levels source' raw' cleaned' given' read' updated'
      obtain rfl := Option.some.inj (given.symm.trans given')
      obtain rfl := Except.ok.inj (read.symm.trans read')
      obtain rfl := Except.ok.inj (updated.symm.trans updated')
      exact levels

/-- So do the fragments, unless they stay and differ from themselves. -/
theorem IsDescribedBy.fragments_anew (described : s.IsDescribedBy w) (made : IsMadeOf a s)
    (keyed : w.HasDistinctKeys) : ∃ fragments,
      (Fragments.collect (w.over a).fragments (w.over a).functions).outcome = .ok fragments ∧
      (s.fragments.same fragments = .ok true ↔
        (w.fragments.isSome || w.functions.isSome) = true ∨ s.fragments.AreComparable) := by
  by_cases given : (w.fragments.isSome || w.functions.isSome) = true
  · obtain ⟨fragments, collected, same⟩ := described.fragments given
    refine ⟨fragments, ?_, iff_of_true (Fragments.same_symm ?_ same) (.inl given)⟩
    · rw [ReuseArguments.over]
      dsimp only
      rw [if_pos given, if_pos given, collected]
    · intro f mem
      rw [Fragments.collect_iff.mp collected] at mem
      rcases List.mem_append.mp mem with own | function
      · cases found : w.fragments with
        | none => simp [found, Fragments.empty] at own
        | some whole => exact keyed whole found f (by simpa [found] using own)
      · obtain ⟨code, _, rfl⟩ := List.mem_map.mp function
        trivial
  · refine ⟨s.fragments, ?_, ?_⟩
    · rw [ReuseArguments.over]
      dsimp only
      rw [if_neg given, if_neg given, made.fragments]
    · rw [Fragments.same_self_iff]
      exact (or_iff_right given).symm

/-- Arguments that describe a model describe it in the place of those that it was made of. -/
theorem IsDescribedBy.anew (described : s.IsDescribedBy w) (made : IsMadeOf a s)
    (keyed : w.HasDistinctKeys) : ∃ raw cleaned fragments,
      s.IsDescribedAnewBy (w.over a) raw cleaned fragments ∧
      (s.KeepsLevels w ↔
        ∀ name ∈ s.formula.predictors, cleaned.levelsOf? name = s.data.levelsOf? name) ∧
      (s.fragments.same fragments = .ok true ↔
        (w.fragments.isSome || w.functions.isSome) = true ∨ s.fragments.AreComparable) := by
  obtain ⟨raw, cleaned, read, updated, data, levels⟩ := described.data_anew made
  obtain ⟨fragments, collected, comparable⟩ := described.fragments_anew made keyed
  have residuals : TermTree.sameAutocorrelation s.autocorrelation (w.over a).autocorrelation =
      true := by
    cases given : w.autocorrelation with
    | none =>
      rw [ReuseArguments.over, given, Option.none_or, made.autocorrelation]
      exact TermTree.sameAutocorrelation_self _
    | some own =>
      rw [ReuseArguments.over, given, Option.some_or]
      exact TermTree.sameAutocorrelation_symm (described.autocorrelation own given)
  refine ⟨raw, cleaned, fragments, ⟨?_, ?_, residuals, read, updated, data, ?_, ?_, ?_, ?_, ?_,
    collected⟩, levels, comparable⟩
  · exact holds_getD (fun text => Formula.read text = .ok s.formula)
      (fun text given => eq_ok_of_beq (described.formula text given)) made.formula
  · exact holds_getD (fun choice => choice.resolve = .ok s.family)
      (fun choice given => eq_ok_of_beq (described.family choice given)) made.family
  · exact holds_getD (fun choice => choice.resolve = .ok s.samplePrior)
      (fun choice given => eq_ok_of_beq (described.samplePrior choice given)) made.samplePrior
  · refine holds_getD (fun given => ∃ knots, checkAllKnots s.formula given = .ok knots ∧
      sameKnots s.knots knots = true) (fun given found => ?_) ?_
    · obtain ⟨knots, checked, same⟩ := described.knots given found
      exact ⟨knots, checked, sameKnots_symm same⟩
    · exact ⟨s.knots, made.knots, sameKnots_self (checkAllKnots_spec made.knots).2.2⟩
  · refine holds_getD (fun sources => ∃ covariances,
      CovarianceSource.checkAll sources s.terms = .ok covariances ∧
        sameCovariances s.covariances covariances = true) (fun sources found => ?_) ?_
    · obtain ⟨covariances, checked, same⟩ := described.covariances sources found
      exact ⟨covariances, checked, sameCovariances_symm same⟩
    · exact ⟨s.covariances, made.covariances,
        sameCovariances_self (CovarianceSource.isSymmetric_of_checkAll made.covariances)⟩
  · exact holds_getD (fun given => given.priors = .ok s.givenPriors)
      (fun given found => eq_ok_of_beq (described.prior given found)) made.givenPriors
  · exact holds_getD (fun sparse => sparse = s.sparse)
      (fun sparse given => eq_of_beq (described.sparse sparse given)) made.sparse.symm

/-- Whatever passes the check beside a fit makes a model that compares equal to that of the fit,
with the same program and data, exactly if its data list the levels of factors in the order of the
model and the values of fragments that are not given anew compare equal to themselves. -/
theorem reuse_sound (done : (normalize a).outcome = .ok s)
    (passes : (s.checkReuse w).outcome = .ok ()) (keyed : w.HasDistinctKeys) :
    (∃ t, (normalize (w.over a)).outcome = .ok t ∧ s.same t = .ok true ∧ s.code = t.code ∧
      EndAlike BuildData.AreAlike (BuildData.ofSpecification s) (BuildData.ofSpecification t)) ↔
    s.KeepsLevels w ∧
      ((w.fragments.isSome || w.functions.isSome) = true ∨ s.fragments.AreComparable) := by
  have made := normalize_eq_ok_iff.mp done
  obtain ⟨raw, cleaned, fragments, described, levels, comparable⟩ :=
    (checkReuse_iff.mp passes).anew made keyed
  rw [levels, ← comparable]
  constructor
  · rintro ⟨t, again, same, _⟩
    exact described.of_made made (normalize_eq_ok_iff.mp again) same
  · rintro ⟨levels, same⟩
    obtain ⟨t, again, same⟩ := described.exists_made made rfl rfl levels same
    have accepted := normalize_eq_ok_iff.mpr again
    have agree := same_iff.mp same
    exact ⟨t, accepted, same, agree.code_eq,
      BuildData.ofSpecification_endAlike agree (normalize_spec done) (normalize_spec accepted)⟩

/-- The data that a model was made of list the levels in its order. -/
theorem keepsLevels_of_isPartOf (made : IsMadeOf a s) (part : w.IsPartOf a) : s.KeepsLevels w := by
  intro source raw cleaned found read updated
  obtain ⟨names, known, _⟩ := checkAllKnots_spec made.knots
  obtain ⟨raw', read', _, updated'⟩ := made.data
  obtain rfl := part.data source found
  obtain rfl := Except.ok.inj (read'.symm.trans read)
  rw [Cleaning.update_knots known] at updated
  rw [Cleaning.update_knots fun name mem => known name (names.mem_iff.mpr mem)] at updated'
  obtain rfl := Except.ok.inj (updated'.symm.trans updated)
  exact fun _ _ => rfl

/-- The arguments of a small model make it anew. -/
theorem extended_made_anew : ∃ s, (normalize extended).outcome = .ok s ∧
    (s.checkReuse extendedArguments).outcome = .ok () ∧ extendedArguments.HasDistinctKeys ∧
      ∃ t, (normalize (extendedArguments.over extended)).outcome = .ok t ∧ s.same t = .ok true ∧
        s.code = t.code ∧ EndAlike BuildData.AreAlike (BuildData.ofSpecification s)
          (BuildData.ofSpecification t) := by
  obtain ⟨s, accepted, computed⟩ := exists_of_any (normalize extended).outcome
    (fun s => (s.checkReuse extendedArguments).outcome = .ok ()) (by decide +kernel)
  have part : extendedArguments.IsPartOf extended := by
    constructor <;> simp [extendedArguments]
  have keyed : extendedArguments.HasDistinctKeys := by
    intro given found f mem
    obtain rfl := Option.some.inj found
    rw [List.mem_singleton.mp mem]
    trivial
  have passes := of_decide_eq_true computed
  refine ⟨s, accepted, passes, keyed, (reuse_sound accepted passes keyed).mpr ⟨?_, .inl rfl⟩⟩
  exact keepsLevels_of_isPartOf (normalize_eq_ok_iff.mp accepted) part

/-- The data of the small model with the levels of its factor in the other order. -/
def relevelled : ReuseArguments where
  data := some (.table ⟨3, [("y", .int #[2, 3, 5].toVector),
    ("f", Column.withLevels (.text #[some "u", some "v", some "u"].toVector) ["v", "u"])]⟩)

/-- They pass the check, but make another model. -/
theorem relevelled_differs : ∃ s t, (normalize extended).outcome = .ok s ∧
    (s.checkReuse relevelled).outcome = .ok () ∧
      (normalize (relevelled.over extended)).outcome = .ok t ∧ s.same t = .ok false := by
  obtain ⟨s, accepted, computed⟩ := exists_of_any (normalize extended).outcome
    (fun s => (normalize (relevelled.over extended)).outcome.toOption.any fun t =>
      (s.checkReuse relevelled).outcome = .ok () ∧ s.same t = .ok false) (by decide +kernel)
  obtain ⟨t, again, computed⟩ := exists_of_any _ _ computed
  obtain ⟨passes, differs⟩ := of_decide_eq_true computed
  exact ⟨s, t, accepted, passes, again, differs⟩

end Specification

end Multilevel
