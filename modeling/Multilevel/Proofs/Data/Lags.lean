import Mathlib
import Multilevel.Data.Lags
import Multilevel.Proofs.Data.Order

/-!
# Series of observations

The observations of an ordered table form one run for each series, and time does not go back inside
a run (`Autocorrelation.series_spec`). An observation passes on a residual for each lag over which
the next observation looks back inside its own series (`Autocorrelation.lt_lagsFrom_iff`).
-/
namespace Multilevel.Autocorrelation

variable {α : Type}

/-- Whether equal elements of a list form one run each. -/
def AreContiguous (series : List α) : Prop :=
  ∀ i j k : Nat, i ≤ j → j ≤ k → series[i]? = series[k]? → series[j]? = series[i]?

/-- Whether an observation, counted from zero, looks back over a lag: the lag is within the limit,
and the observation so much before it exists and belongs to the same series. -/
def LooksBack (series : List α) (limit m lag : Nat) : Prop :=
  1 ≤ lag ∧ lag ≤ limit ∧ lag ≤ m ∧ series[m - lag]? = series[m]?

instance [DecidableEq α] (series : List α) (limit m lag : Nat) :
    Decidable (LooksBack series limit m lag) :=
  inferInstanceAs (Decidable (_ ∧ _ ∧ _ ∧ _))

/-- Whether the cells of a column do not go back inside a series. -/
def IsInTime {rows : Nat} (series : List α) (key : Fin rows → Option Key) : Prop :=
  ∀ i j : Fin rows, i < j → series[i.val]? = series[j.val]? →
    Key.leMissing (key i) (key j) = true

section Runs

variable [DecidableEq α]

/-- The number of elements of a run up to a place. -/
def runLength (series : List α) : Nat → Nat
  | 0 => 1
  | n + 1 => if series[n]? = series[n + 1]? then runLength series n + 1 else 1

/-- The lags of the observations from a place on. -/
theorem lagsFrom_drop (limit : Nat) (series : List α) {n count : Nat}
    (left : n + count = series.length) :
    lagsFrom limit (runLength series n) (series.drop n) =
      (List.range' n count).map fun k =>
        if k + 1 < series.length ∧ series[k]? = series[k + 1]? then
          min limit (runLength series k) else 0 := by
  induction count generalizing n with
  | zero =>
    rw [List.drop_eq_nil_of_le (by omega), List.range'_zero]
    rfl
  | succ count ih =>
    have inside : n < series.length := by omega
    have rest := @ih (n + 1) (by omega)
    rw [List.drop_eq_getElem_cons inside, List.range'_succ, List.map_cons]
    by_cases last : n + 1 < series.length
    · rw [List.drop_eq_getElem_cons last] at rest ⊢
      have elements : series[n]? = series[n + 1]? ↔ series[n] = series[n + 1] := by
        rw [List.getElem?_eq_getElem inside, List.getElem?_eq_getElem last, Option.some.injEq]
      by_cases same : series[n] = series[n + 1]
      · rw [runLength, if_pos (elements.mpr same)] at rest
        rw [lagsFrom, if_pos same, if_pos ⟨last, elements.mpr same⟩, rest]
      · rw [runLength, if_neg fun equal => same (elements.mp equal)] at rest
        rw [lagsFrom, if_neg same, if_neg fun both => same (elements.mp both.2), rest]
    · obtain rfl : count = 0 := by omega
      rw [List.drop_eq_nil_of_le (by omega), List.range'_zero,
        if_neg fun both => last both.1]
      rfl

/-- A run up to a place reaches back to the elements that are equal to the one there. -/
theorem lt_runLength_iff {series : List α} (contiguous : AreContiguous series) (n i : Nat) :
    i < runLength series n ↔ i ≤ n ∧ series[n - i]? = series[n]? := by
  induction n generalizing i with
  | zero =>
    rw [runLength]
    constructor
    · intro below
      obtain rfl : i = 0 := by omega
      exact ⟨le_rfl, rfl⟩
    · intro both
      omega
  | succ n ih =>
    rw [runLength]
    cases i with
    | zero =>
      split <;> simp
    | succ i =>
      have back : n + 1 - (i + 1) = n - i := by omega
      rw [back]
      by_cases same : series[n]? = series[n + 1]?
      · rw [if_pos same, Nat.add_lt_add_iff_right, ih, Nat.add_le_add_iff_right, same]
      · rw [if_neg same]
        constructor
        · intro below
          omega
        · rintro ⟨_, equal⟩
          have between := contiguous (n - i) n (n + 1) (by omega) (by omega) equal
          exact absurd (between.trans equal) same

/-- The number of residuals that an observation passes on tells over which lags the next observation
looks back. -/
theorem lt_lagsFrom_iff {series : List α} (contiguous : AreContiguous series) {limit n i : Nat}
    (inside : n < series.length) :
    i < ((lagsFrom limit 1 series)[n]?).getD 0 ↔ LooksBack series limit (n + 1) (i + 1) := by
  have all := lagsFrom_drop limit series (Nat.zero_add series.length)
  rw [runLength, List.drop_zero] at all
  rw [all, List.getElem?_map, List.getElem?_range' (by omega), Option.map_some, Option.getD_some,
    LooksBack]
  have back : n + 1 - (i + 1) = n - i := by omega
  have place : 0 + 1 * n = n := by omega
  rw [back, place]
  by_cases last : n + 1 < series.length
  · by_cases same : series[n]? = series[n + 1]?
    · rw [if_pos ⟨last, same⟩, lt_min_iff, lt_runLength_iff contiguous, same]
      constructor
      · rintro ⟨below, within, equal⟩
        exact ⟨by omega, below, by omega, equal⟩
      · rintro ⟨_, below, within, equal⟩
        exact ⟨below, by omega, equal⟩
    · rw [if_neg fun both => same both.2]
      constructor
      · intro below
        omega
      · rintro ⟨_, _, _, equal⟩
        have between := contiguous (n - i) n (n + 1) (by omega) (by omega) equal
        exact absurd (between.trans equal) same
  · rw [if_neg fun both => last both.1]
    constructor
    · intro below
      omega
    · rintro ⟨_, _, _, equal⟩
      -- There is no next observation.
      have beyond : series[n + 1]? = none := List.getElem?_eq_none (by omega)
      rw [beyond, List.getElem?_eq_none_iff] at equal
      omega

/-- There is one residual count per observation. -/
theorem length_lagsFrom (limit position : Nat) (series : List α) :
    (lagsFrom limit position series).length = series.length := by
  induction series generalizing position with
  | nil => rfl
  | cons a rest ih =>
    cases rest with
    | nil => rfl
    | cons b more =>
      rw [lagsFrom]
      split <;> simp [ih]

end Runs

/-- Elements that do not go back form one run each. -/
theorem areContiguous_of_leMissing {series : List (Option Key)}
    (ordered : ∀ i j (_ : i < j) (inside : j < series.length),
      Key.leMissing series[i] series[j] = true) : AreContiguous series := by
  have upTo {i j : Nat} (before : i ≤ j) (inside : j < series.length) :
      Key.leMissing series[i] series[j] = true := by
    rcases Nat.eq_or_lt_of_le before with rfl | less
    · exact Key.leMissing_refl _
    · exact ordered i j less inside
  intro i j k first second equal
  by_cases inside : k < series.length
  · rw [List.getElem?_eq_getElem (by omega), List.getElem?_eq_getElem inside,
      Option.some.injEq] at equal
    rw [List.getElem?_eq_getElem (by omega), List.getElem?_eq_getElem (by omega)]
    have back : Key.leMissing series[j] series[i] = true := equal ▸ upTo second inside
    exact congrArg some (Key.leMissing_antisymm back (upTo first (by omega)))
  · have beyond : series[k]? = none := List.getElem?_eq_none (by omega)
    rw [beyond, List.getElem?_eq_none_iff] at equal
    rw [List.getElem?_eq_none equal, List.getElem?_eq_none (by omega)]

variable {a : Autocorrelation} {frame : Frame} {series : List (Option Key)}

/-- The series of rows are the keys of a column, or there is a single one. -/
theorem series_eq_ok (made : a.series frame = .ok series) :
    (a.group = none ∧ series = List.replicate frame.rows none) ∨
      ∃ name column, a.group = some name ∧ frame.column? name = some column ∧
        series = (List.finRange frame.rows).map column.key? := by
  unfold Autocorrelation.series at made
  cases grouped : a.group with
  | none =>
    rw [grouped] at made
    exact .inl ⟨rfl, (Except.ok.inj made).symm⟩
  | some name =>
    simp only [grouped, bind_eq_ok, Frame.column_eq_ok, ↓throw_bind, ite_throw_eq_ok,
      pure_eq_ok] at made
    obtain ⟨column, found, _, same⟩ := made
    exact .inr ⟨name, column, rfl, found, same.symm⟩

/-- Each row has its series. -/
theorem length_series (made : a.series frame = .ok series) : series.length = frame.rows := by
  rcases series_eq_ok made with ⟨_, rfl⟩ | ⟨_, _, _, _, rfl⟩
  · exact List.length_replicate
  · rw [List.length_map, List.length_finRange]

/-- There is one residual count per row. -/
theorem length_lags {lags : List Nat} (made : a.lags frame = .ok lags) :
    lags.length = frame.rows := by
  simp only [Autocorrelation.lags, bind_eq_ok, pure_eq_ok] at made
  obtain ⟨series, here, rfl⟩ := made
  rw [length_lagsFrom, length_series here]

/-- In an ordered table every series is one run of rows, in which time does not go back. -/
theorem series_spec (ordered : frame.IsOrderedBy a.keys) (made : a.series frame = .ok series) :
    AreContiguous series ∧ ∀ name, a.time = some name →
      ∃ column, frame.column? name = some column ∧ IsInTime series column.key? := by
  obtain ⟨columns, found, ordered⟩ := ordered
  rcases series_eq_ok made with ⟨single, rfl⟩ | ⟨name, column, grouped, here, rfl⟩
  · refine ⟨areContiguous_of_leMissing fun i j _ _ => ?_, fun time timed => ?_⟩
    · rw [List.getElem_replicate, List.getElem_replicate]
      exact Key.leMissing_refl none
    · rw [keys, single, timed] at found
      obtain _ | ⟨there, _ | _⟩ := found
      exact ⟨_, there, fun i j before _ => Key.leMissing_of_leList (ordered i j before)⟩
  · rw [keys, grouped] at found
    obtain _ | ⟨there, rest⟩ := found
    obtain rfl := Option.some.inj (here.symm.trans there)
    refine ⟨areContiguous_of_leMissing fun i j before inside => ?_, fun time timed => ?_⟩
    · rw [List.length_map, List.length_finRange] at inside
      rw [List.getElem_map, List.getElem_map, List.getElem_finRange, List.getElem_finRange]
      exact Key.leMissing_of_leList (ordered ⟨i, by omega⟩ ⟨j, inside⟩ before)
    · rw [timed] at rest
      obtain _ | ⟨there, _ | _⟩ := rest
      refine ⟨_, there, fun i j before equal => ?_⟩
      have own (row : Fin frame.rows) :
          ((List.finRange frame.rows).map column.key?)[row.val]? = some (column.key? row) := by
        simp
      rw [own i, own j, Option.some.injEq] at equal
      have both := ordered i j before
      simp only [Frame.keysOf, List.map_cons, ← equal] at both
      exact Key.leMissing_of_leList (Key.leList_of_leList_cons both)

end Multilevel.Autocorrelation
