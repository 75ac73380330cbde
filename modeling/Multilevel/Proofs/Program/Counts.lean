import Multilevel.Proofs.Data.Retained
import Multilevel.Proofs.Program.Labels

/-!
# Counts in the data of a program

Responses and numbers of trials that are integers pass through binary64 numbers before they are stored
in words. The data of a program hold what comes out: the nearest integer with 53 bits, or the least word
where that does not fit (`Specification.emits_stored`). So an integer arrives as it is exactly if it has
53 bits but for zeros behind them and fits a word, and the bounds that a family sets hold of what
arrives exactly if it fits.
-/
namespace Multilevel

namespace Number

/-- What is stored of a number of trials; of an infinite one, the least word. -/
def storedTrials (trials : Option Int) : Int := trials.elim (-halfWords) storedWord

/-- The bounds of a family of trials hold of what is stored exactly if the number of trials fits. -/
theorem stored_within_iff {successes : Int} {trials : Option Int} (nonneg : 0 ≤ successes)
    (within : ∀ n, trials = some n → 1 ≤ nearest n ∧ nearest successes ≤ nearest n) :
    (1 ≤ storedTrials trials ∧ 0 ≤ storedWord successes ∧
      storedWord successes ≤ storedTrials trials) ↔
        ∃ n, trials = some n ∧ n < halfWords - 512 := by
  cases trials with
  | none => exact iff_of_false (fun kept => absurd kept.1 (by decide)) (by simp)
  | some n =>
    obtain ⟨least, most⟩ := within n rfl
    have positive : 0 ≤ n := nearest_nonneg_iff.mp (by omega)
    simp only [storedTrials, Option.elim_some, Option.some.injEq, exists_eq_left']
    constructor
    · rintro ⟨some, _, _⟩
      exact (storedWord_nonneg_iff positive).mp (by omega)
    · intro less
      -- The nearest number of successes fits since that of trials does.
      have few : successes < halfWords - 512 :=
        nearest_lt_iff.mp (most.trans_lt (nearest_lt_iff.mpr less))
      rw [storedWord_of_lt positive less, storedWord_of_lt nonneg few]
      refine ⟨least, ?_, most⟩
      rw [← storedWord_of_lt nonneg few]
      exact (storedWord_nonneg_iff nonneg).mpr few

end Number

namespace BuildData

open Number

/-- Whether a value stands under another name than the outcome. -/
def IsApart (entry : Variable × Datum) : Prop := entry.1 ≠ .response ∧ entry.1 ≠ .trials

/-- The values of the shared design are apart from the outcome. -/
theorem of_mem_designData {s : Specification} {values : List (Variable × Datum)}
    (made : designData s = .ok values) {entry : Variable × Datum} (mem : entry ∈ values) :
    IsApart entry := by
  simp only [designData, bind_eq_ok, pure_eq_ok] at made
  obtain ⟨columns, _, rfl⟩ := made
  split at mem <;> simp only [List.mem_cons, List.not_mem_nil, or_false] at mem <;>
    rcases mem with rfl | rfl | rfl | rfl | rfl <;> simp [IsApart]

/-- The values of a group are apart from the outcome. -/
theorem of_mem_groupData {s : Specification} {group : Group} {values : List (Variable × Datum)}
    (made : groupData s group = .ok values) {entry : Variable × Datum} (mem : entry ∈ values) :
    IsApart entry := by
  simp only [groupData, bind_eq_ok, liftM_eq_mapError, mapError_eq_ok, pure_eq_ok] at made
  obtain ⟨columns, _, index, _, rfl⟩ := made
  simp only [List.mem_append, List.mem_map] at mem
  rcases mem with (first | ⟨column, _, rfl⟩) | covariance
  · simp only [List.mem_cons, List.not_mem_nil, or_false] at first
    rcases first with rfl | rfl | rfl <;> simp [IsApart]
  · simp [IsApart]
  · split at covariance
    · split at covariance
      · obtain rfl := List.mem_singleton.mp covariance
        simp [IsApart]
      · cases covariance
    · cases covariance

/-- The values of the residuals are apart from the outcome. -/
theorem of_mem_lagData {s : Specification} {values : List (Variable × Datum)}
    (made : lagData s = .ok values) {entry : Variable × Datum} (mem : entry ∈ values) :
    IsApart entry := by
  unfold lagData at made
  split at made
  · obtain rfl := Except.ok.inj made
    cases mem
  · simp only [bind_eq_ok, liftM_eq_mapError, mapError_eq_ok, pure_eq_ok] at made
    obtain ⟨lags, _, rfl⟩ := made
    simp only [List.mem_cons, List.not_mem_nil, or_false] at mem
    rcases mem with rfl | rfl <;> simp [IsApart]

/-- Apart from the response and the number of trials, no generated value stands under their names. -/
theorem exists_responseData {s : Specification} {values : List (Variable × Datum)}
    (made : generated s = .ok values) : ∃ response rest, responseData s = .ok response ∧
      values = (.observations, .ofNat s.data.rows) :: response ++ rest ∧
      ∀ entry ∈ rest, IsApart entry := by
  simp only [generated, bind_eq_ok, mapError_eq_ok, liftM_eq_mapError, pure_eq_ok] at made
  obtain ⟨response, responded, design, designed, groups, grouped, lags, lagged, rfl⟩ := made
  refine ⟨response, design ++ groups.flatten ++ lags ++
    (s.knots.flatMap fun knot => knotData knot.1 knot.2) ++
    [(.priorOnly, .ofNat (if s.samplePrior = .only then 1 else 0))], responded, by simp, ?_⟩
  simp only [List.mem_append, List.mem_flatten, List.mem_flatMap, List.mem_singleton]
  rintro entry ((((shared | ⟨data, mem, inside⟩) | lag) | ⟨named, _, knot⟩) | rfl)
  · exact of_mem_designData designed shared
  · obtain ⟨group, _, made⟩ := exists_of_mem_mapM grouped mem
    exact of_mem_groupData made inside
  · exact of_mem_lagData lagged lag
  · simp only [knotData, List.mem_cons, List.not_mem_nil, or_false] at knot
    rcases knot with rfl | rfl <;> simp [IsApart]
  · simp [IsApart]

/-- The response and the number of trials are found under their names. -/
theorem lookup_outcome {s : Specification} {data : BuildData} (done : ofSpecification s = .ok data) :
    ∃ response, responseData s = .ok response ∧ ∀ v datum, response.reverse.lookup v = some datum →
      v = .response ∨ v = .trials → data.lookup v.name = some datum := by
  simp only [ofSpecification, bind_eq_ok, liftM_eq_mapError, mapError_eq_ok] at done
  obtain ⟨values, made, done⟩ := done
  obtain ⟨response, rest, responded, rfl, apart⟩ := exists_responseData made
  refine ⟨response, responded, fun v datum found own => lookup_addLoose done ?_⟩
  have none : rest.reverse.lookup v = none := by
    refine List.lookup_eq_none_iff.mpr fun entry mem => ?_
    have other := apart entry (List.mem_reverse.mp mem)
    rcases own with rfl | rfl
    · exact bne_iff_ne.mpr other.1.symm
    · exact bne_iff_ne.mpr other.2.symm
  rw [lookup_ofValues, List.reverse_append, List.lookup_append, none, Option.none_or,
    List.reverse_cons, List.lookup_append, found, Option.some_or]

/-- A response that is stored in words is emitted in words. -/
theorem lookup_response {s : Specification} {data : BuildData} (done : ofSpecification s = .ok data)
    (discrete : s.family.distribution.responseKind ≠ .real) {cells : Vector Int s.data.rows}
    (found : s.data.column? s.formula.response = some (.int cells)) :
    data.lookup "Y" = some (.ints cells.toList) := by
  obtain ⟨response, responded, emitted⟩ := lookup_outcome done
  refine emitted .response _ ?_ (.inl rfl)
  simp only [responseData, bind_eq_ok, pure_eq_ok, Frame.column_eq_ok, outcome, if_neg discrete]
    at responded
  obtain ⟨column, here, _, rfl, counted, counts, rfl⟩ := responded
  obtain rfl := Option.some.inj (here.symm.trans found)
  unfold trialsData at counts
  split at counts
  · obtain rfl := Except.ok.inj counts
    rfl
  · simp only [bind_eq_ok, pure_eq_ok] at counts
    obtain ⟨column, _, rfl⟩ := counts
    rfl

/-- A number of trials that is stored in words is emitted in words. -/
theorem lookup_trials {s : Specification} {data : BuildData} (done : ofSpecification s = .ok data)
    {name : String} (tried : s.formula.trials = some name) {cells : Vector Int s.data.rows}
    (found : s.data.column? name = some (.int cells)) :
    data.lookup "trials" = some (.ints cells.toList) := by
  obtain ⟨response, responded, emitted⟩ := lookup_outcome done
  refine emitted .trials _ ?_ (.inr rfl)
  simp only [responseData, bind_eq_ok, pure_eq_ok, trialsData, tried, Frame.column_eq_ok]
    at responded
  obtain ⟨_, _, _, _, _, ⟨column, here, rfl⟩, rfl⟩ := responded
  obtain rfl := Option.some.inj (here.symm.trans found)
  rfl

end BuildData

namespace Specification

open Number

/-- Whether data hold the outcome of the caller's rows as it is stored: integers that the cells denote,
and integers that stand in for them. -/
structure EmitsCounts (s : Specification) (raw : Frame) (origin : Fin s.data.rows → Fin raw.rows)
    (outcome : Fin s.data.rows → Int) (data : BuildData) : Prop where
  /-- The response denotes the outcome. -/
  denotes : ∃ given, raw.column? s.formula.response = some given ∧
    ∀ row, given.Denotes (origin row) (outcome row)
  /-- What is emitted is what is stored of it. -/
  response : data.lookup "Y" = some (.ints (List.ofFn fun row => storedWord (outcome row)))
  /-- That is the outcome itself exactly if it has few bits and fits. -/
  exactly : ∀ row, storedWord (outcome row) = outcome row ↔
    IsShort (outcome row) ∧ isWord (outcome row) = true
  /-- Counts are not negative, and what is emitted is not negative exactly if they fit. -/
  count : s.family.distribution.responseKind = .count → ∀ row, 0 ≤ outcome row ∧
    (0 ≤ storedWord (outcome row) ↔ outcome row < halfWords - 512)
  /-- Truth values are emitted as zeros and ones. -/
  binary : s.family.distribution.responseKind = .binary → ∀ row,
    (outcome row = 0 ∨ outcome row = 1) ∧ storedWord (outcome row) = outcome row
  /-- Numbers of trials are emitted as what is stored of them, and the bounds hold of what is emitted
  exactly if these fit. -/
  trials : s.family.distribution.responseKind = .trials →
    ∃ name given, ∃ numbers : Fin s.data.rows → Option Int, s.formula.trials = some name ∧
      raw.column? name = some given ∧ (∀ row, given.Grants (origin row) (numbers row)) ∧
      data.lookup "trials" = some (.ints (List.ofFn fun row => storedTrials (numbers row))) ∧
      ∀ row, 0 ≤ outcome row ∧ ((1 ≤ storedTrials (numbers row) ∧ 0 ≤ storedWord (outcome row) ∧
        storedWord (outcome row) ≤ storedTrials (numbers row)) ↔
          ∃ n, numbers row = some n ∧ n < halfWords - 512)

/-- Of the integers that are rounded to zero or one, which are these two, all are stored. -/
theorem storedWord_of_truth {n : Int} (truth : nearest n = 0 ∨ nearest n = 1) :
    (n = 0 ∨ n = 1) ∧ storedWord n = n := by
  rw [nearest_eq_iff (by decide), nearest_eq_iff (by decide)] at truth
  refine ⟨truth, ?_⟩
  rcases truth with rfl | rfl <;> decide

/-- Numbers of trials that suit the response are granted by their cells, and what is stored of them is
what is stored of what the cells denote. -/
theorem exists_granted {m n : Nat} {stored : Column n} {given : Column m} {origin : Fin n → Fin m}
    {counts : Fin n → Float} (stores : stored.Stores given origin counts)
    (measured : given.IsMeasured) {row : Fin n} {x : Float} {successes : Int}
    (same : exact x = nearest successes) (tried : Cleaning.IsTried x (counts row)) :
    ∃ trials, given.Grants (origin row) trials ∧
      toInt64 (counts row) = storedTrials trials ∧
      ∀ n, trials = some n → 1 ≤ nearest n ∧ nearest successes ≤ nearest n := by
  obtain ⟨_, infinite | ⟨whole, least, most⟩⟩ := tried
  · refine ⟨none, ⟨_, stores.read row, infinite⟩, toInt64_of_not_isFinite ?_, by simp⟩
    rw [isFinite, infinite]
  · obtain ⟨k, denotes, near, word⟩ := stores.exists_denoted measured row whole
    refine ⟨some k, denotes, word, fun n equal => ?_⟩
    obtain rfl := Option.some.inj equal
    rw [near] at least most
    rw [same] at most
    exact ⟨by exact_mod_cast least, by exact_mod_cast most⟩

/-- A count of cleaned data is emitted as it is stored. -/
theorem exists_emitsCounts {s : Specification} {raw : Frame}
    {origin : Fin s.data.rows → Fin raw.rows} {responses : Fin s.data.rows → Float}
    (counted : Cleaning.Counted s.formula s.family raw s.data origin responses)
    (discrete : s.family.distribution.responseKind ≠ .real)
    (measured : ∀ name column, Cleaning.IsOutcome s.formula name → raw.column? name = some column →
      column.IsMeasured) :
    ∃ outcome, ∀ data, BuildData.ofSpecification s = .ok data →
      EmitsCounts s raw origin outcome data := by
  obtain ⟨given, stored, here, there, stores⟩ := counted.response
  choose outcome denotes near word using fun row =>
    stores.exists_denoted ((measured _ _ (.inl rfl) here).readAs _) row (counted.integers row)
  have nonneg (row) (least : 0 ≤ exact (responses row)) : 0 ≤ outcome row := by
    rw [near] at least
    exact nearest_nonneg_iff.mp (by exact_mod_cast least)
  refine ⟨outcome, fun data done => ⟨⟨given, here, fun row => Column.denotes_readAs.mp (denotes row)⟩,
    ?_, fun row => storedWord_eq_self_iff, fun kind row => ?_, fun kind row => ?_, fun kind => ?_⟩⟩
  · obtain ⟨cells, rfl, words⟩ := stores.exists_toList
    rw [BuildData.lookup_response done discrete there, words, funext word]
  · have least := nonneg row (counted.count kind row)
    exact ⟨least, storedWord_nonneg_iff least⟩
  · have truth := counted.binary kind row
    rw [near] at truth
    exact storedWord_of_truth (by exact_mod_cast truth)
  · obtain ⟨name, given, stored, counts, tried, here, there, stores, suited⟩ := counted.trials kind
    choose numbers granted words within using fun row =>
      exists_granted stores (measured _ _ (.inr tried.symm) here) (near row) (suited row)
    obtain ⟨cells, rfl, cell⟩ := stores.exists_toList
    refine ⟨name, given, numbers, tried, here, granted, ?_, fun row => ?_⟩
    · rw [BuildData.lookup_trials done tried there, cell, funext words]
    · have least := nonneg row (suited row).1
      exact ⟨least, stored_within_iff least (within row)⟩

variable {a : ModelArguments} {s : Specification}

/-- In every normalized specification of a discrete family with integers, truth values or binary64
numbers for its outcome, each kept row emits what is stored of the integers that its cells denote. -/
theorem emits_stored {raw : Frame} (accepted : (normalize a).outcome = .ok s)
    (discrete : s.family.distribution.responseKind ≠ .real) (given : a.data.frame = .ok raw)
    (measured : ∀ name column, Cleaning.IsOutcome s.formula name → raw.column? name = some column →
      column.IsMeasured) :
    ∃ (origin : Fin s.data.rows → Fin raw.rows) (outcome : Fin s.data.rows → Int),
      Cleaning.Cleaned s.formula s.family s.autocorrelation raw s.data origin ∧
      (∀ data, BuildData.ofSpecification s = .ok data → EmitsCounts s raw origin outcome data) ∧
      (s.fragments.data = [] → ∃ data, BuildData.ofSpecification s = .ok data) := by
  obtain ⟨own, read, _, updated⟩ := (normalize_eq_ok_iff.mp accepted).data
  obtain rfl := Except.ok.inj (given.symm.trans read)
  obtain ⟨origin, responses, clean, counted⟩ := Cleaning.update_counted updated discrete
  obtain ⟨outcome, emits⟩ := exists_emitsCounts counted discrete measured
  refine ⟨origin, outcome, clean, emits, fun none => ?_⟩
  have normal := normalize_spec accepted
  obtain ⟨columns, design⟩ := normal.design
  obtain ⟨values, _, made, _⟩ := BuildData.generated_spec normal design
  refine ⟨BuildData.ofValues values, ?_⟩
  rw [BuildData.ofSpecification, made, none]
  rfl

/-- Numbers of successes and of trials, one of which is a binary64 number. -/
def trialed : ModelArguments where
  formula := "y | trials(n) ~ 1"
  family := .named "binomial"
  data := .table ⟨3, [("y", .int #[2, 0, 1].toVector), ("n", .float #[2, 4, 1].toVector)]⟩

/-- The small model of trials emits its numbers. -/
theorem trialed_emits : ∃ s raw, (normalize trialed).outcome = .ok s ∧
    s.family.distribution.responseKind = .trials ∧ trialed.data.frame = .ok raw ∧
    ∃ (origin : Fin s.data.rows → Fin raw.rows) (outcome : Fin s.data.rows → Int),
      Cleaning.Cleaned s.formula s.family s.autocorrelation raw s.data origin ∧
      (∀ data, BuildData.ofSpecification s = .ok data → EmitsCounts s raw origin outcome data) ∧
      (s.fragments.data = [] → ∃ data, BuildData.ofSpecification s = .ok data) := by
  obtain ⟨s, accepted, kind⟩ := exists_of_any (normalize trialed).outcome
    (fun s => s.family.distribution.responseKind = .trials) (by decide +kernel)
  have kind := of_decide_eq_true kind
  refine ⟨s, _, accepted, kind, rfl, emits_stored accepted (by simp [kind]) rfl ?_⟩
  intro name column _ found
  simp only [Frame.column?, List.lookup_cons, List.lookup_nil] at found
  split at found
  · obtain rfl := Option.some.inj found
    show ∀ row : Fin 3, _
    decide
  · split at found
    · obtain rfl := Option.some.inj found
      trivial
    · cases found

/-- Three counts. -/
def counting (outcome : Column 3) : ModelArguments where
  formula := "y ~ 1"
  family := .named "poisson"
  data := .table ⟨3, [("y", outcome)]⟩

/-- Whether data hold integers as the response. -/
def holdsCounts (counts : List Int) (data : BuildData) : Bool :=
  match data.lookup "Y" with
  | some (.ints values) => values == counts
  | _ => false

/-- A model whose data are known to hold integers as the response emits these. -/
theorem exists_counts {a : ModelArguments} {counts : List Int}
    (holds : ((normalize a).outcome >>= BuildData.ofSpecification).toOption.any
      (holdsCounts counts) = true) :
    ∃ s data, (normalize a).outcome = .ok s ∧ BuildData.ofSpecification s = .ok data ∧
      data.lookup "Y" = some (.ints counts) := by
  obtain ⟨data, done, kept⟩ := exists_of_any _ _ holds
  obtain ⟨s, accepted, made⟩ := bind_eq_ok.mp done
  refine ⟨s, data, accepted, made, ?_⟩
  unfold holdsCounts at kept
  split at kept
  · rename_i values found
    rw [found, beq_iff_eq.mp kept]
  · cases kept

/-- A count with 54 bits is emitted as another one, and a count that no word holds as a negative
number. -/
theorem count_changed :
    (∃ s data, (normalize (counting (.int #[9007199254740993, 2, 3].toVector))).outcome = .ok s ∧
      BuildData.ofSpecification s = .ok data ∧
      data.lookup "Y" = some (.ints [9007199254740992, 2, 3])) ∧
    ∃ s data, (normalize (counting (.float #[10000000000000000000, 2, 3].toVector))).outcome =
      .ok s ∧ BuildData.ofSpecification s = .ok data ∧
      data.lookup "Y" = some (.ints [-9223372036854775808, 2, 3]) :=
  ⟨exists_counts (by decide +kernel), exists_counts (by decide +kernel)⟩

end Specification

end Multilevel
