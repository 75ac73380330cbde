import Multilevel.Model.Reuse
import Multilevel.Proofs.Model.Normalize

/-!
# Arguments beside a fit that is reused

Arguments beside a fit pass the check exactly if each of them describes the model of the fit
(`Specification.checkReuse_iff`). The arguments that the model was made of do
(`Specification.reuse_complete`). Fragments and the functions given by the old argument are one
description, so one of them without the other describes another model.
-/
namespace Multilevel

namespace Fragments

/-- The fragment of the functions given by the old argument. -/
def ofFunctions (functions : Option String) : List Fragment :=
  functions.toList.map fun code => ⟨code, .functions, none, .null⟩

/-- Fragments and functions can always be collected: the functions come last and have no name. -/
theorem collect_iff {given : Option Fragments} {functions : Option String} {fragments : Fragments} :
    (collect given functions).outcome = .ok fragments ↔
      fragments.items = (given.getD empty).items ++ ofFunctions functions := by
  have told (x : Fragments) : x = fragments ↔ fragments.items = x.items := by
    cases x
    cases fragments
    simp [eq_comm]
  unfold collect
  cases functions with
  | none =>
    rw [Reported.outcome_pure, Except.ok.injEq, told]
    simp [ofFunctions]
  | some code =>
    have distinct := (given.getD empty).distinct
    rw [← List.append_nil (List.filterMap _ _)] at distinct
    dsimp only
    rw [Reported.outcome_warn_bind, Reported.outcome_liftM, mapError_eq_ok, add, ofList,
      dif_pos (by rw [List.filterMap_append]; exact distinct), Except.ok.injEq, told]
    rfl

end Fragments

namespace ReuseArguments

/-- Whether arguments beside a fit are among those that a model was made of. -/
structure IsPartOf (w : ReuseArguments) (a : ModelArguments) : Prop where
  /-- The formula, if it is given. -/
  formula : ∀ given, w.formula = some given → given = a.formula
  /-- The data. -/
  data : ∀ given, w.data = some given → given = a.data
  /-- The family. -/
  family : ∀ given, w.family = some given → given = a.family
  /-- The priors. -/
  prior : ∀ given, w.prior = some given → given = a.prior
  /-- The structure of the residuals. -/
  autocorrelation : ∀ given, w.autocorrelation = some given → a.autocorrelation = some given
  /-- The known covariances. -/
  covariances : ∀ given, w.covariances = some given → given = a.covariances
  /-- The choice about draws from the priors. -/
  samplePrior : ∀ given, w.samplePrior = some given → given = a.samplePrior
  /-- Whether the design is sparse. -/
  sparse : ∀ given, w.sparse = some given → given = a.sparse
  /-- The knots. -/
  knots : ∀ given, w.knots = some given → given = a.knots
  /-- The fragments. -/
  fragments : ∀ given, w.fragments = some given → a.fragments = some given
  /-- The functions given by the old argument. -/
  functions : ∀ given, w.functions = some given → a.functions = some given

/-- Whether fragments are given without the functions that belong to them, or functions without the
fragments. -/
def LeavesOut (w : ReuseArguments) (a : ModelArguments) : Prop :=
  (w.fragments.isSome ∧ w.functions = none ∧ a.functions.isSome) ∨
    (w.functions.isSome ∧ w.fragments = none ∧ ∃ given, a.fragments = some given ∧ given.items ≠ [])

end ReuseArguments

namespace Specification

/-- An argument is refused exactly if it differs. -/
theorem require_eq_ok {argument : String} {agrees : Bool} {done : Unit} :
    (require argument agrees).outcome = .ok done ↔ agrees = true := by
  cases agrees <;>
    simp [require, refuse, throw, throwThe, MonadExceptOf.throw, Reported.fail, Pure.pure,
      Reported.pure]

variable {α ε : Type} {given : Option α} {checks : Reported Unit} {passes : α → Prop}

/-- An argument that has to pass a check if it is given, before further checks. -/
theorem given_iff (rest : Reported Unit) (absent : given = none → checks = rest)
    (present : ∀ a, given = some a → (checks.outcome = .ok () ↔ passes a ∧ rest.outcome = .ok ())) :
    checks.outcome = .ok () ↔ (∀ a, given = some a → passes a) ∧ rest.outcome = .ok () := by
  cases given with
  | none => simp [absent rfl]
  | some a => simp [present a rfl]

/-- An argument that must not differ, before further checks. -/
theorem require_bind_iff {argument : String} {agrees : Bool} {next : Unit → Reported Unit} :
    (require argument agrees >>= next).outcome = .ok () ↔
      agrees = true ∧ (next ()).outcome = .ok () := by
  rw [Reported.outcome_bind, bind_eq_ok]
  constructor
  · rintro ⟨_, agree, done⟩
    exact ⟨require_eq_ok.mp agree, done⟩
  · rintro ⟨agree, done⟩
    exact ⟨(), require_eq_ok.mpr agree, done⟩

/-- A value that has to agree, before further checks. -/
theorem required_iff [IsFailure ε] {x : Except ε α} {argument : String} {agrees : α → Bool}
    {next : Unit → Reported Unit} :
    ((liftM x : Reported α) >>= fun a => require argument (agrees a) >>= next).outcome = .ok () ↔
      (∃ a, x = .ok a ∧ agrees a = true) ∧ (next ()).outcome = .ok () := by
  simp only [Reported.outcome_bind, Reported.outcome_liftM, bind_eq_ok, mapError_eq_ok,
    require_eq_ok]
  constructor
  · rintro ⟨a, read, _, agree, done⟩
    exact ⟨⟨a, read, agree⟩, done⟩
  · rintro ⟨⟨a, read, agree⟩, done⟩
    exact ⟨a, read, (), agree, done⟩

/-- What holds of arguments that describe the model of a specification. -/
@[mk_iff]
structure IsDescribedBy (s : Specification) (a : ReuseArguments) : Prop where
  /-- The formula is that of the model. -/
  formula : ∀ text, a.formula = some text → ∃ formula, Formula.read text = .ok formula ∧
    (formula == s.formula) = true
  /-- So is the family. -/
  family : ∀ choice, a.family = some choice → ∃ family, choice.resolve = .ok family ∧
    (family == s.family) = true
  /-- So is the structure of the residuals. -/
  autocorrelation : ∀ given, a.autocorrelation = some given →
    TermTree.sameAutocorrelation (some given) s.autocorrelation = true
  /-- The data, as the model takes them, compare equal. -/
  data : ∀ source, a.data = some source → ∃ frame updated, source.frame = .ok frame ∧
    (Cleaning.update frame s.formula s.family s.autocorrelation
      (s.knots.map Prod.fst)).outcome = .ok updated ∧ updated.same s.data = true
  /-- The priors are those that were given for the model. -/
  prior : ∀ given, a.prior = some given → ∃ priors, given.priors = .ok priors ∧
    (priors == s.givenPriors) = true
  /-- The known covariances compare equal. -/
  covariances : ∀ sources, a.covariances = some sources → ∃ covariances,
    CovarianceSource.checkAll sources s.terms = .ok covariances ∧
      sameCovariances covariances s.covariances = true
  /-- The choice about draws from the priors is that of the model. -/
  samplePrior : ∀ choice, a.samplePrior = some choice → ∃ chosen, choice.resolve = .ok chosen ∧
    (chosen == s.samplePrior) = true
  /-- The design is sparse as that of the model. -/
  sparse : ∀ sparse, a.sparse = some sparse → (sparse == s.sparse) = true
  /-- The knots compare equal. -/
  knots : ∀ given, a.knots = some given → ∃ knots, checkAllKnots s.formula given = .ok knots ∧
    sameKnots knots s.knots = true
  /-- The fragments compare equal. -/
  fragments : (a.fragments.isSome || a.functions.isSome) = true → ∃ fragments,
    (Fragments.collect a.fragments a.functions).outcome = .ok fragments ∧
      fragments.same s.fragments = .ok true

/-- The arguments beside a reused fit pass the check exactly if each describes its model. -/
theorem checkReuse_iff {s : Specification} {a : ReuseArguments} :
    (s.checkReuse a).outcome = .ok () ↔ s.IsDescribedBy a := by
  rw [isDescribedBy_iff]
  unfold checkReuse
  extract_lets fragments knots sparse samplePrior covariances prior data residuals family
  -- Each check is followed by those of the remaining arguments.
  refine (given_iff (family ()) (fun none => by rw [none]) fun _ given => ?_).trans
    (and_congr_right' ?_)
  · rw [given]
    exact required_iff
  refine (given_iff (residuals ()) (fun none => by simp only [family, none])
    fun _ given => ?_).trans (and_congr_right' ?_)
  · simp only [family, given]
    exact required_iff
  refine (given_iff (data ()) (fun none => by simp only [residuals, none])
    fun _ given => ?_).trans (and_congr_right' ?_)
  · simp only [residuals, given]
    exact require_bind_iff
  refine (given_iff (prior ()) (fun none => by simp only [data, none])
    fun _ given => ?_).trans (and_congr_right' ?_)
  · simp only [data, given, Reported.outcome_bind, Reported.outcome_liftM, bind_eq_ok,
      mapError_eq_ok, require_eq_ok]
    constructor
    · rintro ⟨frame, read, updated, cleaned, _, agree, done⟩
      exact ⟨⟨frame, updated, read, cleaned, agree⟩, done⟩
    · rintro ⟨⟨frame, updated, read, cleaned, agree⟩, done⟩
      exact ⟨frame, read, updated, cleaned, (), agree, done⟩
  refine (given_iff (covariances ()) (fun none => by simp only [prior, none])
    fun _ given => ?_).trans (and_congr_right' ?_)
  · simp only [prior, given]
    exact required_iff
  refine (given_iff (samplePrior ()) (fun none => by simp only [covariances, none])
    fun _ given => ?_).trans (and_congr_right' ?_)
  · simp only [covariances, given]
    exact required_iff
  refine (given_iff (sparse ()) (fun none => by simp only [samplePrior, none])
    fun _ given => ?_).trans (and_congr_right' ?_)
  · simp only [samplePrior, given]
    exact required_iff
  refine (given_iff (knots ()) (fun none => by simp only [sparse, none])
    fun _ given => ?_).trans (and_congr_right' ?_)
  · simp only [sparse, given]
    exact require_bind_iff
  refine (given_iff (fragments ()) (fun none => by simp only [knots, none])
    fun _ given => ?_).trans (and_congr_right' ?_)
  · simp only [knots, given]
    exact required_iff
  simp only [fragments]
  split
  · rename_i given
    simp only [Reported.outcome_bind, Reported.outcome_liftM, bind_eq_ok, mapError_eq_ok,
      require_eq_ok, given, forall_const]
    constructor
    · rintro ⟨fragments, collected, _, same, rfl⟩
      exact ⟨fragments, collected, same⟩
    · rintro ⟨fragments, collected, same⟩
      exact ⟨fragments, collected, true, same, rfl⟩
  · rename_i none
    exact iff_of_true rfl fun given => absurd given none

variable {a : ModelArguments} {s : Specification} {w : ReuseArguments}

/-- Fragments and functions among those that a model was made of describe it exactly if neither
leaves the other out. -/
theorem fragments_described_iff (made : IsMadeOf a s) (comparable : s.fragments.AreComparable)
    (part : w.IsPartOf a) :
    ((w.fragments.isSome || w.functions.isSome) = true → ∃ fragments,
      (Fragments.collect w.fragments w.functions).outcome = .ok fragments ∧
        fragments.same s.fragments = .ok true) ↔ ¬w.LeavesOut a := by
  have items := Fragments.collect_iff.mp made.fragments
  constructor
  · -- What is left out is missing from the collection.
    rintro described (⟨given, none, left⟩ | ⟨given, none, own, found, nonempty⟩)
    · obtain ⟨own, found⟩ := Option.isSome_iff_exists.mp given
      obtain ⟨code, functions⟩ := Option.isSome_iff_exists.mp left
      obtain ⟨fragments, collected, same⟩ := described (by rw [given, Bool.true_or])
      have count := (Fragments.same_iff.mp same).length_eq
      rw [items, Fragments.collect_iff.mp collected, part.fragments own found, found, none,
        functions] at count
      simp [Fragments.ofFunctions] at count
    · obtain ⟨code, functions⟩ := Option.isSome_iff_exists.mp given
      obtain ⟨fragments, collected, same⟩ := described (by rw [given, Bool.or_true])
      have count := (Fragments.same_iff.mp same).length_eq
      rw [items, Fragments.collect_iff.mp collected, part.functions code functions, found, none,
        functions] at count
      exact nonempty (by simpa [Fragments.empty] using count)
  · intro kept given
    rw [Bool.or_eq_true] at given
    refine ⟨s.fragments, Fragments.collect_iff.mpr ?_, Fragments.same_self_iff.mpr comparable⟩
    rw [items]
    congr 1
    · cases own : w.fragments with
      | some own' => rw [part.fragments own' own]
      | none =>
        have functions : w.functions.isSome = true := by simpa [own] using given
        cases found : a.fragments with
        | none => rfl
        | some whole =>
          by_contra other
          exact kept (.inr ⟨functions, own, whole, found, other⟩)
    · cases own : w.functions with
      | some code => rw [part.functions code own]
      | none =>
        have fragments : w.fragments.isSome = true := by simpa [own] using given
        cases found : a.functions with
        | none => rfl
        | some code => exact absurd (.inl ⟨fragments, own, by rw [found]; rfl⟩) kept

/-- Arguments that a model was made of describe it, unless they leave out fragments or functions. -/
theorem reuse_complete (done : (normalize a).outcome = .ok s)
    (comparable : s.fragments.AreComparable) :
    (∀ t, (normalize a).outcome = .ok t → s.same t = .ok true) ∧
      ∀ w : ReuseArguments, w.IsPartOf a →
        ((s.checkReuse w).outcome = .ok () ↔ ¬w.LeavesOut a) := by
  have made := normalize_eq_ok_iff.mp done
  constructor
  · intro t again
    obtain rfl := Except.ok.inj (done.symm.trans again)
    exact (same_self_iff made).mpr comparable
  · intro w part
    rw [checkReuse_iff, ← fragments_described_iff made comparable part]
    refine ⟨IsDescribedBy.fragments, fun described => ?_⟩
    obtain ⟨raw, given, _, cleaned⟩ := made.data
    obtain ⟨names, known, finite⟩ := checkAllKnots_spec made.knots
    have same : Cleaning.update raw s.formula s.family s.autocorrelation (s.knots.map Prod.fst) =
        Cleaning.update raw s.formula s.family s.autocorrelation (a.knots.map Prod.fst) := by
      rw [Cleaning.update_knots known,
        Cleaning.update_knots fun name mem => known name (names.mem_iff.mpr mem)]
    refine ⟨fun text found => ?_, fun choice found => ?_, fun residuals found => ?_,
      fun source found => ?_, fun priors found => ?_, fun sources found => ?_,
      fun choice found => ?_, fun sparse found => ?_, fun knots found => ?_, described⟩
    · exact part.formula text found ▸ ⟨_, made.formula, beq_self_eq_true _⟩
    · exact part.family choice found ▸ ⟨_, made.family, beq_self_eq_true _⟩
    · rw [made.autocorrelation, part.autocorrelation residuals found]
      exact TermTree.sameAutocorrelation_self _
    · obtain rfl := part.data source found
      exact ⟨raw, s.data, given, same ▸ cleaned, s.data.same_self⟩
    · exact part.prior priors found ▸ ⟨_, made.givenPriors, beq_self_eq_true _⟩
    · exact part.covariances sources found ▸ ⟨_, made.covariances,
        sameCovariances_self (CovarianceSource.isSymmetric_of_checkAll made.covariances)⟩
    · exact part.samplePrior choice found ▸ ⟨_, made.samplePrior, beq_self_eq_true _⟩
    · rw [part.sparse sparse found, made.sparse]
      exact beq_self_eq_true _
    · exact part.knots knots found ▸ ⟨_, made.knots, sameKnots_self finite⟩

/-- A small model with a variable and a function of the user. -/
def extended : ModelArguments where
  formula := "y ~ f"
  data := .table ⟨3, [("y", .int #[2, 3, 5].toVector),
    ("f", Column.withLevels (.text #[some "u", some "v", some "u"].toVector) ["u", "v"])]⟩
  fragments := (Fragments.ofList [⟨"int k;", .data, some "k", .int 1⟩]).toOption
  functions := some "real half(real x);"

/-- The small model is accepted, and its fragments compare equal to themselves. -/
theorem exists_normalize_extended : ∃ s, (normalize extended).outcome = .ok s ∧
    s.fragments.AreComparable := by
  obtain ⟨s, accepted, computed⟩ := exists_of_any (normalize extended).outcome
    (fun s => s.fragments.same s.fragments = .ok true) (by decide +kernel)
  exact ⟨s, accepted, Fragments.same_self_iff.mp (of_decide_eq_true computed)⟩

/-- Its formula, its data, its fragments and its functions. -/
def extendedArguments : ReuseArguments where
  formula := some extended.formula
  data := some extended.data
  fragments := extended.fragments
  functions := extended.functions

/-- They describe it. -/
theorem extended_described : ∃ s, (normalize extended).outcome = .ok s ∧
    s.fragments.AreComparable ∧ extendedArguments.IsPartOf extended ∧ s.same s = .ok true ∧
      (s.checkReuse extendedArguments).outcome = .ok () := by
  obtain ⟨s, accepted, comparable⟩ := exists_normalize_extended
  obtain ⟨same, described⟩ := reuse_complete accepted comparable
  have part : extendedArguments.IsPartOf extended := by
    constructor <;> simp [extendedArguments]
  refine ⟨s, accepted, comparable, part, same s accepted, (described _ part).mpr ?_⟩
  have both : extendedArguments.fragments.isSome ∧ extendedArguments.functions.isSome := by decide
  rintro (⟨_, none, _⟩ | ⟨_, none, _⟩) <;> simp [none] at both

/-- Its fragments without its functions do not. -/
theorem extended_differs : ∃ s, (normalize extended).outcome = .ok s ∧
    ReuseArguments.IsPartOf { fragments := extended.fragments } extended ∧
      (s.checkReuse { fragments := extended.fragments }).outcome =
        .error (.specification (.differs "stanvars")) := by
  obtain ⟨s, accepted, computed⟩ := exists_of_any (normalize extended).outcome
    (fun s => (s.checkReuse { fragments := extended.fragments }).outcome =
      .error (.specification (.differs "stanvars"))) (by decide +kernel)
  refine ⟨s, accepted, ?_, of_decide_eq_true computed⟩
  constructor <;> simp

end Specification

end Multilevel
