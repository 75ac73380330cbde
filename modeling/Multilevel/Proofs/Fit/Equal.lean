import Multilevel.Fit.Basic
import Multilevel.Proofs.Program.Same

/-!
# Fits that compare equal

Fits are compared part by part: what two of them have in common that compare equal is `Fit.Agrees`
(`Fit.same_iff`). Numbers of data and of draws are compared place by place, and variables of draws by
their names. Where a fit is stored does not matter, and neither do the values of its criteria: of
these only the names are compared, so that fits whose criteria differ compare equal
(`Fit.criteria_not_compared`).
-/
namespace Multilevel

open Number (Alike)

namespace Value

/-- Whether two values are arrays of one shape with equal leaves, when each is stored beside the
other. -/
def AreEqualArrays (u v : Value) : Prop :=
  ∃ shape leaves leaves', u.cells = .ok ⟨shape, leaves⟩ ∧ v.cells = .ok ⟨shape, leaves'⟩ ∧
    List.Forall₂ (fun p q =>
      (stored ((leafKind leaves).beside (leafKind leaves')) p).equal
        (stored ((leafKind leaves').beside (leafKind leaves)) q) = true) leaves leaves'

/-- Values are the same array exactly if they are arrays of one shape with equal leaves. -/
theorem sameArray_iff {u v : Value} : u.sameArray v = .ok true ↔ u.AreEqualArrays v := by
  simp only [sameArray, bind_eq_ok, pure_eq_ok, Bool.and_eq_true, beq_iff_eq, equalItems_iff,
    List.forall₂_map_left_iff, List.forall₂_map_right_iff]
  constructor
  · rintro ⟨⟨shape, leaves⟩, left, ⟨_, leaves'⟩, right, rfl, each⟩
    exact ⟨shape, leaves, leaves', left, right, each⟩
  · rintro ⟨shape, leaves, leaves', left, right, each⟩
    exact ⟨_, left, _, right, rfl, each⟩

/-- Whether a value is an array each of whose leaves equals itself, so that none holds what is no
number. -/
def HoldsNumbers (v : Value) : Prop :=
  ∃ c, v.cells = .ok c ∧ ∀ leaf ∈ c.leaves, leaf.equal leaf = true

instance (v : Value) : Decidable v.HoldsNumbers :=
  decidable_of_iff (v.cells.toOption.any fun c => c.leaves.all fun leaf => leaf.equal leaf) <| by
    unfold HoldsNumbers
    cases v.cells <;> simp [Except.toOption]

/-- Such a value is the same array as itself. -/
theorem HoldsNumbers.sameArray_self {v : Value} (numbers : v.HoldsNumbers) :
    v.sameArray v = .ok true := by
  obtain ⟨c, made, leaves⟩ := numbers
  exact Value.sameArray_self made leaves

end Value

namespace BuildData

/-- Data compare equal exactly if they hold equal arrays under the same names in the same order. -/
theorem same_iff {x y : BuildData} : x.same y = .ok true ↔
    Entries.Related (fun p q : Datum => p.value.AreEqualArrays q.value) x y := by
  unfold same Entries.Related
  induction x generalizing y with
  | nil => cases y <;> simp [sameValues]
  | cons first rest ih =>
    cases y with
    | nil => simp
    | cons first' rest' =>
      obtain ⟨name, p⟩ := first
      obtain ⟨name', q⟩ := first'
      rw [List.forall₂_cons, ← ih]
      by_cases names : name = name' ∧ rest.map Prod.fst = rest'.map Prod.fst
      · obtain ⟨rfl, others⟩ := names
        rw [if_pos (by simp [others]), if_pos others, sameValues, bind_eq_ok]
        constructor
        · rintro ⟨compared, own, later⟩
          cases compared with
          | true => exact ⟨⟨rfl, Value.sameArray_iff.mp own⟩, later⟩
          | false => cases later
        · rintro ⟨⟨_, own⟩, later⟩
          exact ⟨true, Value.sameArray_iff.mpr own, later⟩
      · rw [if_neg (by simpa using names)]
        constructor
        · intro wrong
          cases wrong
        · rintro ⟨⟨same, _⟩, later⟩
          rw [if_neg fun others => names ⟨same.symm, others⟩] at later
          cases later

end BuildData

namespace Artifacts

/-- What generated programs, data and names have in common that compare equal. -/
structure Agrees (a b : Artifacts) : Prop where
  /-- The programs are equal. -/
  code : a.code = b.code
  /-- The data hold equal arrays under the same names in the same order. -/
  data : Entries.Related (fun p q : Datum => p.value.AreEqualArrays q.value) a.data b.data
  /-- The same variables are dropped from the output. -/
  exclude : a.exclude = b.exclude
  /-- The group-level terms are equal. -/
  groups : a.groups = b.groups
  /-- The shared coefficients are equal. -/
  population : a.population = b.population
  /-- An intercept is estimated in both or in neither. -/
  intercept : a.intercept = b.intercept

/-- What is generated compares equal exactly if it has this in common. -/
theorem same_iff {a b : Artifacts} : a.same b = .ok true ↔ a.Agrees b := by
  unfold same
  constructor
  · intro done
    split at done
    · cases done
    · rename_i code
      obtain ⟨compared, data, done⟩ := bind_eq_ok.mp done
      cases compared with
      | false => cases done
      | true =>
        have rest := Except.ok.inj done
        simp only [Bool.and_eq_true, beq_iff_eq] at rest
        exact ⟨by simpa using code, BuildData.same_iff.mp data, rest.1.1.1, rest.1.1.2, rest.1.2,
          rest.2⟩
  · intro agree
    have data := BuildData.same_iff.mpr agree.data
    simp [agree.code, data, agree.exclude, agree.groups, agree.population, agree.intercept, bind,
      Except.bind, pure, Except.pure]

end Artifacts

/-- Whether arrays have the same dimensions and, place by place, numbers that count as the same. -/
structure DrawArray.Agrees (x y : DrawArray Float) : Prop where
  /-- The dimensions have the same names and lengths. -/
  dims : x.dims = y.dims
  /-- The numbers count as the same. -/
  values : List.Forall₂ Alike x.values.toList y.values.toList

/-- Arrays compare equal exactly if they agree. -/
theorem DrawArray.same_iff {x y : DrawArray Float} :
    x.same Column.sameNumber y = true ↔ x.Agrees y := by
  rw [same, Bool.and_eq_true, Bool.and_eq_true, beq_iff_eq, beq_iff_eq, List.all_eq_true]
  have values : (x.values.size = y.values.size ∧ ∀ pair ∈ x.values.toList.zip y.values.toList,
      Column.sameNumber pair.1 pair.2 = true) ↔
        List.Forall₂ Alike x.values.toList y.values.toList := by
    rw [List.forall₂_iff_zip, Array.length_toList, Array.length_toList]
    refine and_congr_right' ⟨?_, ?_⟩
    · intro all x y mem
      exact all (x, y) mem
    · intro all pair mem
      exact all mem
  exact ⟨fun ⟨⟨dims, count⟩, each⟩ => ⟨dims, values.mp ⟨count, each⟩⟩,
    fun agree => ⟨⟨agree.dims, (values.mpr agree.values).1⟩, (values.mpr agree.values).2⟩⟩

namespace Dataset

/-- What datasets have in common that compare equal: as many variables, each of the first with a
counterpart in the second, and the same of the labels. -/
structure Agrees (a b : Dataset Float) : Prop where
  /-- There are as many variables. -/
  count : a.arrays.length = b.arrays.length
  /-- Each variable has a counterpart that agrees. -/
  arrays : ∀ entry ∈ a.arrays, ∃ other, b.arrays.lookup entry.1 = some other ∧
    entry.2.Agrees other
  /-- As many dimensions have labels. -/
  labelCount : a.labels.length = b.labels.length
  /-- Each dimension with labels has the same labels. -/
  labels : ∀ entry ∈ a.labels, b.labels.lookup entry.1 = some entry.2

/-- Datasets compare equal exactly if they have this in common. -/
theorem same_iff {a b : Dataset Float} : a.same Column.sameNumber b = true ↔ a.Agrees b := by
  unfold same
  simp only [Bool.and_eq_true, beq_iff_eq, List.all_eq_true]
  constructor
  · rintro ⟨⟨⟨count, arrays⟩, labelCount⟩, labels⟩
    refine ⟨count, fun entry mem => ?_, labelCount, labels⟩
    have own := arrays entry mem
    split at own
    · rename_i other found
      exact ⟨other, found, DrawArray.same_iff.mp own⟩
    · cases own
  · intro agree
    refine ⟨⟨⟨agree.count, fun entry mem => ?_⟩, agree.labelCount⟩, agree.labels⟩
    obtain ⟨other, found, own⟩ := agree.arrays entry mem
    rw [found]
    exact DrawArray.same_iff.mpr own

/-- Whether no two variables and no two dimensions with labels have one name. -/
structure IsKeyed (d : Dataset Float) : Prop where
  names : d.names.Nodup
  labels : (d.labels.map Prod.fst).Nodup

/-- A dataset agrees with itself. -/
theorem IsKeyed.agrees_self {d : Dataset Float} (keyed : d.IsKeyed) : d.Agrees d where
  count := rfl
  arrays entry mem := ⟨entry.2, Entries.lookup_of_mem keyed.names mem, rfl,
    List.forall₂_same.mpr fun x _ => .refl x⟩
  labelCount := rfl
  labels _ mem := Entries.lookup_of_mem keyed.labels mem

namespace Agrees

variable {a b : Dataset Float}

/-- The variables have the same names, in whatever order. -/
theorem names_perm (agree : a.Agrees b) (distinct : a.names.Nodup) : a.names.Perm b.names :=
  Entries.perm_keys_of_found distinct agree.count fun entry mem =>
    (agree.arrays entry mem).imp fun _ => And.left

/-- Under each name there are arrays that agree, or none. -/
theorem lookup (agree : a.Agrees b) (distinct : a.names.Nodup) (name : String) :
    Option.Rel DrawArray.Agrees (a.arrays.lookup name) (b.arrays.lookup name) :=
  Entries.rel_lookup_of_found distinct agree.count agree.arrays name

/-- Each dimension has the same labels, or none. -/
theorem labels_eq (agree : a.Agrees b) (distinct : (a.labels.map Prod.fst).Nodup) (dim : String) :
    a.labels.lookup dim = b.labels.lookup dim := by
  have same : Option.Rel Eq (a.labels.lookup dim) (b.labels.lookup dim) :=
    Entries.rel_lookup_of_found distinct agree.labelCount
      (fun entry mem => ⟨_, agree.labels entry mem, rfl⟩) dim
  generalize a.labels.lookup dim = x at same ⊢
  generalize b.labels.lookup dim = y at same ⊢
  cases same with
  | none => rfl
  | some equal => rw [equal]

end Agrees

/-- A dimension of a variable has the size of that dimension, if no dimension has two. -/
theorem sizeOf?_of_mem {d : Dataset Float} (consistent : d.hasConsistentSizes = true)
    {entry : String × DrawArray Float} (mem : entry ∈ d.arrays) {dim : String} {count : Nat}
    (inside : (dim, count) ∈ entry.2.dims) : d.sizeOf? dim = some count := by
  have listed : (dim, count) ∈ d.arrays.flatMap fun (_, a) => a.dims :=
    List.mem_flatMap.mpr ⟨entry, mem, inside⟩
  obtain ⟨size, found⟩ := Entries.exists_lookup_iff.mpr (List.mem_map_of_mem (f := Prod.fst) listed)
  have whole := List.all_eq_true.mp consistent _ (List.mem_append_left _ listed)
  dsimp only at whole found
  rw [List.lookup_append, found, Option.some_or, beq_iff_eq] at whole
  rw [sizeOf?, found, Option.some.inj whole]

/-- Datasets that agree have the same sizes, if no dimension has two. -/
theorem Agrees.sizeOf?_eq {a b : Dataset Float} (agree : a.Agrees b) (distinct : a.names.Nodup)
    (left : a.hasConsistentSizes = true) (right : b.hasConsistentSizes = true) (dim : String) :
    a.sizeOf? dim = b.sizeOf? dim := by
  cases own : a.sizeOf? dim with
  | some count =>
    obtain ⟨entry, mem, inside⟩ := List.mem_flatMap.mp (Entries.mem_of_lookup own)
    obtain ⟨y, found, same⟩ := agree.arrays entry mem
    exact (sizeOf?_of_mem right (Entries.mem_of_lookup found) (same.dims ▸ inside)).symm
  | none =>
    cases other : b.sizeOf? dim with
    | none => rfl
    | some count =>
      obtain ⟨⟨name, y⟩, mem, inside⟩ := List.mem_flatMap.mp (Entries.mem_of_lookup other)
      have perm := agree.names_perm distinct
      obtain ⟨x, found⟩ := Entries.exists_lookup_iff.mpr
        (perm.mem_iff.mpr (List.mem_map_of_mem (f := Prod.fst) mem))
      obtain ⟨z, counterpart, same⟩ := agree.arrays _ (Entries.mem_of_lookup found)
      obtain rfl : y = z := Option.some.inj
        ((Entries.lookup_of_mem (perm.nodup_iff.mp distinct) mem).symm.trans counterpart)
      have here : (dim, count) ∈ x.dims := same.dims.symm ▸ inside
      cases own.symm.trans (sizeOf?_of_mem left (Entries.mem_of_lookup found) here)

end Dataset

namespace Posterior

/-- What draws have in common that compare equal. -/
structure Agrees (p q : Posterior Float) : Prop where
  /-- The chains have the same numbers in the same order. -/
  chains : p.chains = q.chains
  /-- The draws agree. -/
  draws : p.draws.Agrees q.draws
  /-- What the sampler says agrees. -/
  stats : p.stats.Agrees q.stats

/-- Draws compare equal exactly if they have this in common. -/
theorem same_iff {p q : Posterior Float} : p.same q = true ↔ p.Agrees q := by
  rw [same, Bool.and_eq_true, Bool.and_eq_true, beq_iff_eq, Dataset.same_iff, Dataset.same_iff]
  exact ⟨fun ⟨⟨chains, draws⟩, stats⟩ => ⟨chains, draws, stats⟩,
    fun agree => ⟨⟨agree.chains, agree.draws⟩, agree.stats⟩⟩

/-- Whether no two variables and no two dimensions with labels have one name. -/
structure IsKeyed (p : Posterior Float) : Prop where
  draws : p.draws.IsKeyed
  stats : p.stats.IsKeyed

/-- Draws agree with themselves. -/
theorem IsKeyed.agrees_self {p : Posterior Float} (keyed : p.IsKeyed) : p.Agrees p :=
  ⟨rfl, keyed.draws.agrees_self, keyed.stats.agrees_self⟩

end Posterior

namespace Fit

/-- What fits have in common that compare equal. Of the criteria these are the names alone. -/
structure Agrees (a b : Fit) : Prop where
  /-- The specifications agree. -/
  specification : a.specification.Agrees b.specification
  /-- What was generated agrees. -/
  artifacts : a.artifacts.Agrees b.artifacts
  /-- The programs were built with the same options. -/
  identity : a.compiled.identity = b.compiled.identity
  /-- The draws agree. -/
  draws : a.draws.Agrees b.draws
  /-- The algorithms are equal. -/
  algorithm : a.algorithm = b.algorithm
  /-- The criteria have the same names. -/
  criteria : ∀ name, name ∈ a.criteria.map Prod.fst ↔ name ∈ b.criteria.map Prod.fst

/-- Lists hold the same names exactly if each name is in both or in neither. -/
theorem sameNames_iff {a b : List String} :
    sameNames a b = true ↔ ∀ name, name ∈ a ↔ name ∈ b := by
  simp only [sameNames, Bool.and_eq_true, List.all_eq_true, List.contains_iff_mem]
  exact ⟨fun ⟨left, right⟩ name => ⟨left name, right name⟩,
    fun same => ⟨fun name => (same name).mp, fun name => (same name).mpr⟩⟩

/-- Fits compare equal exactly if they have this in common. -/
theorem same_iff {a b : Fit} : a.same b = .ok true ↔ a.Agrees b := by
  unfold same
  constructor
  · intro done
    obtain ⟨compared, specification, done⟩ := bind_eq_ok.mp done
    cases compared with
    | false => cases done
    | true =>
      obtain ⟨compared, artifacts, done⟩ := bind_eq_ok.mp done
      cases compared with
      | false => cases done
      | true =>
        have rest := Except.ok.inj done
        simp only [Bool.and_eq_true, CompiledModel.same, beq_iff_eq, Posterior.same_iff,
          sameNames_iff] at rest
        obtain ⟨⟨⟨identity, draws⟩, algorithm⟩, criteria⟩ := rest
        exact ⟨Specification.same_iff.mp specification, Artifacts.same_iff.mp artifacts, identity,
          draws, algorithm, criteria⟩
  · intro agree
    have specification := Specification.same_iff.mpr agree.specification
    have artifacts := Artifacts.same_iff.mpr agree.artifacts
    have draws := Posterior.same_iff.mpr agree.draws
    have criteria := sameNames_iff.mpr agree.criteria
    simp [specification, artifacts, CompiledModel.same, agree.identity, draws, agree.algorithm,
      criteria, bind, Except.bind, pure, Except.pure]

/-- Whether the data, the matrices and the values of the fragments hold nothing that is no number, so
that each of them equals itself. -/
structure HasNumbers (f : Fit) : Prop where
  /-- The knots are numbers. -/
  knots : ∀ entry ∈ f.specification.knots, ∀ x ∈ entry.2, x.isNaN = false
  /-- The entries of the known covariances are numbers. -/
  covariances : ∀ entry ∈ f.specification.covariances, ∀ row place,
    ((entry.2.cells.get row).get place).isNaN = false
  /-- The values of fragments hold numbers. -/
  fragments : ∀ fragment ∈ f.specification.fragments.items, fragment.value.HoldsNumbers
  /-- The data of the program hold numbers. -/
  data : ∀ entry ∈ f.artifacts.data, entry.2.value.HoldsNumbers

/-- A specification whose numbers are numbers agrees with itself. -/
theorem HasNumbers.specification_self {f : Fit} (numbers : f.HasNumbers) :
    f.specification.Agrees f.specification where
  formula := rfl
  family := rfl
  data := f.specification.data.same_self
  terms := by simp [TermTree.same, TermTree.sameAutocorrelation_self]
  priors := rfl
  autocorrelation := TermTree.sameAutocorrelation_self _
  covariances := Specification.sameCovariances_iff.mpr (List.forall₂_same.mpr fun entry mem =>
    ⟨rfl, Covariance.same_iff.mpr fun row place => by
      rw [Number.beq_self, numbers.covariances entry mem row place, Bool.not_false]⟩)
  sparse := rfl
  knots := Specification.sameKnots_self numbers.knots
  fragments := Fragments.same_self_iff.mpr fun fragment mem =>
    (numbers.fragments fragment mem).sameArray_self
  samplePrior := rfl
  exclude := rfl

/-- What was generated agrees with itself if the data hold numbers. -/
theorem HasNumbers.artifacts_self {f : Fit} (numbers : f.HasNumbers) :
    f.artifacts.Agrees f.artifacts where
  code := rfl
  data := List.forall₂_same.mpr fun entry mem =>
    ⟨rfl, Value.sameArray_iff.mp (numbers.data entry mem).sameArray_self⟩
  exclude := rfl
  groups := rfl
  population := rfl
  intercept := rfl

/-- Whether a fit holds what another one holds, wherever both are stored and whatever the values of
their criteria are. -/
structure IsCopy (b a : Fit) : Prop where
  specification : b.specification = a.specification
  artifacts : b.artifacts = a.artifacts
  identity : b.compiled.identity = a.compiled.identity
  draws : b.draws = a.draws
  algorithm : b.algorithm = a.algorithm
  criteria : ∀ name, name ∈ b.criteria.map Prod.fst ↔ name ∈ a.criteria.map Prod.fst

/-- What can be read from two fits: their programs, chains and algorithms are equal, under each name
there are draws, diagnostics and labels that agree, and they are displayed alike but for where they
are stored. -/
structure ReadsAs (a b : Fit) : Prop where
  code : a.artifacts.code = b.artifacts.code
  chains : a.draws.chains = b.draws.chains
  algorithm : a.algorithm = b.algorithm
  draws : ∀ name, Option.Rel DrawArray.Agrees (a.draws.draws.arrays.lookup name)
    (b.draws.draws.arrays.lookup name)
  stats : ∀ name, Option.Rel DrawArray.Agrees (a.draws.stats.arrays.lookup name)
    (b.draws.stats.arrays.lookup name)
  labels : ∀ dim, a.draws.draws.labels.lookup dim = b.draws.draws.labels.lookup dim
  text : a.draws.draws.hasConsistentSizes = true → b.draws.draws.hasConsistentSizes = true →
    a.text = { b with file := a.file }.text

/-- Fits that agree read alike. -/
theorem Agrees.readsAs {a b : Fit} (agree : a.Agrees b) (keyed : a.draws.IsKeyed) :
    a.ReadsAs b where
  code := agree.artifacts.code
  chains := agree.draws.chains
  algorithm := agree.algorithm
  draws := agree.draws.draws.lookup keyed.draws.names
  stats := agree.draws.stats.lookup keyed.stats.names
  labels := agree.draws.draws.labels_eq keyed.draws.labels
  text left right := by
    have count : a.draws.drawCount = b.draws.drawCount := by
      rw [Posterior.drawCount, Posterior.drawCount,
        agree.draws.draws.sizeOf?_eq keyed.draws.names left right]
    rw [text, text, count, agree.specification.formula, agree.specification.family,
      agree.algorithm, agree.draws.chains]

/-- Fits compare equal exactly if they agree: of the criteria the names are compared and nothing else.
So a fit of numbers compares equal to every copy of it, whatever the values of the criteria and
wherever the copy is stored; and whatever else can be read from fits that compare equal reads
alike. -/
theorem same_spec {a : Fit} (keyed : a.draws.IsKeyed) (b : Fit) :
    (a.same b = .ok true ↔ a.Agrees b) ∧ (a.HasNumbers → b.IsCopy a → a.same b = .ok true) ∧
      (a.same b = .ok true → a.ReadsAs b) := by
  refine ⟨same_iff, fun numbers copy => same_iff.mpr ?_, fun same =>
    (same_iff.mp same).readsAs keyed⟩
  exact ⟨copy.specification ▸ numbers.specification_self, copy.artifacts ▸ numbers.artifacts_self,
    copy.identity.symm, copy.draws.symm ▸ keyed.agrees_self, copy.algorithm.symm,
    fun name => (copy.criteria name).symm⟩

/-- A fit of a small model. -/
def sample (s : Specification) (data : BuildData) : Fit where
  specification := s
  artifacts := .make s s.code data
  compiled := ⟨"b33b97428128", s.code, "", "", [], ⟨[], [], .null, false, .text "model"⟩, none⟩
  draws := ⟨[1], ⟨[("b_Intercept", ⟨[("chain", 1), ("draw", 2)], #[0.5, 1.5]⟩)], []⟩, ⟨[], []⟩⟩
  algorithm := "sampling"

/-- It holds numbers. -/
theorem exists_numbers_sample : ∃ s data,
    (Specification.normalize (Specification.crossing 0.5)).outcome = .ok s ∧
      BuildData.ofSpecification s = .ok data ∧ (sample s data).HasNumbers ∧
      (sample s data).draws.IsKeyed := by
  obtain ⟨s, accepted, computed⟩ :=
    exists_of_any (Specification.normalize (Specification.crossing 0.5)).outcome
      (fun s => s.knots.isEmpty ∧ s.covariances.isEmpty ∧ s.fragments.items.isEmpty ∧
        (BuildData.ofSpecification s).toOption.any fun data =>
          ∀ entry ∈ data, entry.2.value.HoldsNumbers) (by decide +kernel)
  obtain ⟨knots, covariances, fragments, computed⟩ := of_decide_eq_true computed
  obtain ⟨data, made, computed⟩ := exists_of_any _ _ computed
  rw [List.isEmpty_iff] at knots covariances fragments
  refine ⟨s, data, accepted, made, ⟨?_, ?_, ?_, of_decide_eq_true computed⟩,
    ⟨by simp [sample, Dataset.names], by simp [sample]⟩, by simp [sample, Dataset.names],
    by simp [sample]⟩
  · simp [sample, knots]
  · simp [sample, covariances]
  · simp [sample, fragments]

/-- A fit that was stored compares equal to itself and reads alike. -/
theorem sample_same_stored : ∃ f : Fit, f.HasNumbers ∧ f.draws.IsKeyed ∧
    (f.stored "m.pkl").IsCopy f ∧ f.same (f.stored "m.pkl") = .ok true ∧
      f.ReadsAs (f.stored "m.pkl") := by
  obtain ⟨s, data, _, _, numbers, keyed⟩ := exists_numbers_sample
  have copy : ((sample s data).stored "m.pkl").IsCopy (sample s data) :=
    ⟨rfl, rfl, rfl, rfl, rfl, fun _ => .rfl⟩
  obtain ⟨_, copies, reads⟩ := same_spec keyed ((sample s data).stored "m.pkl")
  have same := copies numbers copy
  exact ⟨_, numbers, keyed, copy, same, reads same⟩

/-- Two fits that differ in the value of a criterion compare equal. -/
theorem criteria_not_compared : ∃ f : Fit, f.HasNumbers ∧ f.draws.IsKeyed ∧
    let a := f.withCriteria [("loo", .int 1)]
    let b := f.withCriteria [("loo", .int 2)]
    a.same b = .ok true ∧ a.criteria.lookup "loo" ≠ b.criteria.lookup "loo" := by
  obtain ⟨s, data, _, _, numbers, keyed⟩ := exists_numbers_sample
  refine ⟨_, numbers, keyed, same_iff.mpr ?_, ?_⟩
  · exact ⟨numbers.specification_self, numbers.artifacts_self, rfl, keyed.agrees_self, rfl,
      fun _ => .rfl⟩
  · exact fun same => nomatch Option.some.inj same

end Fit

end Multilevel
