import Mathlib
import Multilevel.Draws.Summary

/-!
# Summaries of exact numbers

Without rounding, a summary depends on the pool of the numbers alone, in whatever order they come:
sums in halves and strands are sums, and quantiles are taken between the order statistics of the
pool (`Summary.row_eq`). Quantiles are ordered as the shares that are asked for, and the mean and
all quantiles lie between the least and the greatest number (`Pool.row_describes`).
-/
namespace Multilevel

/-- Real numbers, in which nothing is rounded. -/
noncomputable instance : DrawNumber ℝ where
  ofNat n := n
  atMost x y := decide (x ≤ y)
  floor x := ⌊x⌋₊
  root := Real.sqrt
  isNone _ := false
  none := 0

namespace Summary

section Sums

variable {xs ys : List ℝ}

/-- Numbers from left to right have their sum. -/
theorem plainSum_eq (start : ℝ) (xs : List ℝ) : plainSum start xs = start + xs.sum := by
  induction xs generalizing start with
  | nil => exact (add_zero start).symm
  | cons x rest ih => exact (ih (start + x)).trans (by rw [List.sum_cons, add_assoc])

/-- Two lists added number by number have the sum of both. -/
theorem sum_zipWith (same : xs.length = ys.length) :
    (List.zipWith (· + ·) xs ys).sum = xs.sum + ys.sum := by
  induction xs generalizing ys with
  | nil => simp [List.length_eq_zero_iff.mp same.symm]
  | cons x rest ih =>
    obtain ⟨y, more, rfl⟩ := List.exists_cons_of_length_eq_add_one same.symm
    rw [List.zipWith_cons_cons, List.sum_cons, ih (Nat.succ.inj same), List.sum_cons, List.sum_cons]
    ring

/-- Strands keep the sum of all numbers. -/
theorem addStrands_spec (blocks : Nat) {strands : List ℝ} (xs : List ℝ)
    (eight : strands.length = 8) (enough : 8 * blocks ≤ xs.length) :
    (addStrands strands blocks xs).1.length = 8 ∧
      (addStrands strands blocks xs).1.sum + (addStrands strands blocks xs).2.sum =
        strands.sum + xs.sum := by
  induction blocks generalizing strands xs with
  | zero => exact ⟨eight, rfl⟩
  | succ blocks ih =>
    have taken : strands.length = (xs.take 8).length := by rw [List.length_take, eight]; omega
    have added : (List.zipWith (· + ·) strands (xs.take 8)).length = 8 := by
      rw [List.length_zipWith, ← taken, eight, Nat.min_self]
    obtain ⟨length, total⟩ := ih (xs.drop 8) added (by rw [List.length_drop]; omega)
    refine ⟨length, total.trans ?_⟩
    show (List.zipWith (· + ·) strands (xs.take 8)).sum + _ = _
    rw [sum_zipWith taken, add_assoc, List.sum_take_add_sum_drop]

/-- Strands have the sum of all numbers. -/
theorem strandSum_eq (some : 8 ≤ xs.length) : strandSum xs = xs.sum := by
  have first : (xs.take 8).length = 8 := by rw [List.length_take]; omega
  obtain ⟨length, total⟩ := addStrands_spec (xs.length / 8 - 1) (xs.drop 8) first
    (by rw [List.length_drop]; omega)
  rw [List.sum_take_add_sum_drop] at total
  rw [strandSum, ← total]
  generalize addStrands (xs.take 8) (xs.length / 8 - 1) (xs.drop 8) = ended at length
  obtain ⟨strands, rest⟩ := ended
  match strands, length with
  | [a, b, c, d, e, f, g, h], _ =>
    show plainSum (((a + b) + (c + d)) + ((e + f) + (g + h))) rest = _
    rw [plainSum_eq]
    simp only [List.sum_cons, List.sum_nil]
    ring

/-- In whatever parts it is taken, the sum is the sum. -/
theorem sum_eq (xs : List ℝ) : sum xs = xs.sum := by
  fun_induction sum xs with
  | case1 xs few =>
    rw [plainSum_eq]
    show ((0 : ℕ) : ℝ) + xs.sum = xs.sum
    rw [Nat.cast_zero, zero_add]
  | case2 xs few more => exact strandSum_eq (Nat.le_of_not_lt few)
  | case3 xs few more half left right =>
    rw [left, right]
    exact List.sum_take_add_sum_drop xs half

end Sums

end Summary

/-- The value at a point between the places of a sequence, on the line between its two neighbours. -/
noncomputable def interpolated (x : ℕ → ℝ) (t : ℝ) : ℝ :=
  x ⌊t⌋₊ + (x (⌊t⌋₊ + 1) - x ⌊t⌋₊) * (t - ⌊t⌋₊)

section Interpolated

variable {x : ℕ → ℝ} {s t : ℝ}

/-- A value lies between those of the two neighbours. -/
theorem interpolated_mem (rising : Monotone x) (positive : 0 ≤ t) :
    x ⌊t⌋₊ ≤ interpolated x t ∧ interpolated x t ≤ x (⌊t⌋₊ + 1) := by
  have gap : 0 ≤ x (⌊t⌋₊ + 1) - x ⌊t⌋₊ := sub_nonneg.mpr (rising (Nat.le_succ _))
  have start : 0 ≤ t - ⌊t⌋₊ := sub_nonneg.mpr (Nat.floor_le positive)
  have stop : t - ⌊t⌋₊ ≤ 1 := by linarith only [(Nat.lt_floor_add_one t).le]
  have least := mul_nonneg gap start
  have greatest := mul_le_of_le_one_right gap stop
  constructor <;> rw [interpolated] <;> linarith only [least, greatest]

/-- Values of a rising sequence rise. -/
theorem interpolated_le (rising : Monotone x) (positive : 0 ≤ s) (below : s ≤ t) :
    interpolated x s ≤ interpolated x t := by
  -- Two points between the same neighbours are compared on their line, any others by a neighbour
  -- that lies between them.
  rcases (Nat.floor_le_floor below).eq_or_lt with same | before
  · have gap : 0 ≤ x (⌊t⌋₊ + 1) - x ⌊t⌋₊ := sub_nonneg.mpr (rising (Nat.le_succ _))
    rw [interpolated, interpolated, same]
    have longer := mul_le_mul_of_nonneg_left (sub_le_sub_right below (⌊t⌋₊ : ℝ)) gap
    linarith only [longer]
  · calc interpolated x s ≤ x (⌊s⌋₊ + 1) := (interpolated_mem rising positive).2
      _ ≤ x ⌊t⌋₊ := rising before
      _ ≤ interpolated x t := (interpolated_mem rising (positive.trans below)).1

end Interpolated

namespace Pool

variable (m : Multiset ℝ)

/-- The mean of a pool of numbers. -/
noncomputable def mean : ℝ := m.sum / m.card

/-- The standard deviation of a pool of numbers, estimated with one degree of freedom less than
there are numbers. -/
noncomputable def deviation : ℝ := √((m.map fun x => (x - mean m) ^ 2).sum / (m.card - 1))

/-- The number at a place of a pool in ascending order; behind all of them the greatest one. -/
noncomputable def statistic (k : ℕ) : ℝ := (m.sort (· ≤ ·)).getD (min k (m.card - 1)) 0

/-- The quantile of a pool for a share: between two order statistics on the line between them. -/
noncomputable def quantile (q : ℝ) : ℝ := interpolated (statistic m) ((m.card - 1 : ℕ) * q)

/-- The summary of a pool of numbers. -/
noncomputable def row (qs : List ℝ) : Summary.Row ℝ :=
  ⟨mean m, deviation m, qs.map (quantile m)⟩

variable {m}

/-- The statistics of a pool are numbers of it. -/
theorem statistic_mem (some : m ≠ 0) (k : ℕ) : statistic m k ∈ m := by
  have positive := Multiset.card_pos.mpr some
  have inside : min k (m.card - 1) < (m.sort (· ≤ ·)).length := by
    rw [Multiset.length_sort]
    omega
  rw [statistic, List.getD_eq_getElem _ _ inside, ← Multiset.mem_sort (· ≤ ·)]
  exact List.getElem_mem inside

/-- The statistics of a pool rise. -/
theorem monotone_statistic (some : m ≠ 0) : Monotone (statistic m) := by
  have positive := Multiset.card_pos.mpr some
  intro j k below
  have inside (k : ℕ) : min k (m.card - 1) < (m.sort (· ≤ ·)).length := by
    rw [Multiset.length_sort]
    omega
  rw [statistic, statistic, List.getD_eq_getElem _ _ (inside j),
    List.getD_eq_getElem _ _ (inside k)]
  rcases (min_le_min_right (m.card - 1) below).eq_or_lt with same | before
  · simp only [same, le_refl]
  · exact List.pairwise_iff_getElem.mp (Multiset.pairwise_sort m (· ≤ ·)) _ _ _ _ before

/-- Every number of a pool lies between the first statistic and the last one. -/
theorem mem_between (some : m ≠ 0) {x : ℝ} (mem : x ∈ m) :
    statistic m 0 ≤ x ∧ x ≤ statistic m (m.card - 1) := by
  obtain ⟨k, inside, rfl⟩ := List.mem_iff_getElem.mp ((Multiset.mem_sort (· ≤ ·)).mpr mem)
  rw [Multiset.length_sort] at inside
  have own : statistic m k = (m.sort (· ≤ ·))[k] := by
    rw [statistic, Nat.min_eq_left (by omega), List.getD_eq_getElem]
  rw [← own]
  exact ⟨monotone_statistic some (Nat.zero_le k), monotone_statistic some (by omega)⟩

/-- The mean of a pool lies between its least and its greatest number. -/
theorem mean_between (some : m ≠ 0) :
    statistic m 0 ≤ mean m ∧ mean m ≤ statistic m (m.card - 1) := by
  have positive : (0 : ℝ) < m.card := Nat.cast_pos.mpr (Multiset.card_pos.mpr some)
  have least := Multiset.card_nsmul_le_sum fun x mem => (mem_between some mem).1
  have greatest := Multiset.sum_le_card_nsmul _ _ fun x mem => (mem_between some mem).2
  rw [nsmul_eq_mul] at least greatest
  rw [mean, le_div_iff₀ positive, div_le_iff₀ positive]
  constructor <;> linarith only [least, greatest]

/-- Every quantile of a pool lies between its least and its greatest number. -/
theorem quantile_between (some : m ≠ 0) {q : ℝ} (positive : 0 ≤ q) :
    statistic m 0 ≤ quantile m q ∧ quantile m q ≤ statistic m (m.card - 1) := by
  have rising := monotone_statistic some
  obtain ⟨least, greatest⟩ := interpolated_mem rising
    (mul_nonneg (Nat.cast_nonneg (m.card - 1)) positive)
  exact ⟨(rising (Nat.zero_le _)).trans least,
    greatest.trans (mem_between some (statistic_mem some _)).2⟩

/-- A greater share has no lesser quantile. -/
theorem quantile_le (some : m ≠ 0) {p q : ℝ} (positive : 0 ≤ p) (below : p ≤ q) :
    quantile m p ≤ quantile m q :=
  interpolated_le (monotone_statistic some) (mul_nonneg (Nat.cast_nonneg _) positive)
    (mul_le_mul_of_nonneg_left below (Nat.cast_nonneg _))

/-- What a summary for some shares says about a pool of numbers. -/
structure Describes (m : Multiset ℝ) (qs : List ℝ) (row : Summary.Row ℝ) : Prop where
  /-- Each share has its quantile. -/
  each : row.quantiles.length = qs.length
  /-- The mean and all quantiles lie between the least and the greatest number of the pool. -/
  between : ∃ least ∈ m, ∃ greatest ∈ m, (∀ x ∈ m, least ≤ x ∧ x ≤ greatest) ∧
    ∀ value ∈ row.mean :: row.quantiles, least ≤ value ∧ value ≤ greatest
  /-- A greater share has no lesser quantile. -/
  ordered : ∀ (j k : ℕ) (p q u v : ℝ), qs[j]? = some p → qs[k]? = some q →
    row.quantiles[j]? = some u → row.quantiles[k]? = some v → p ≤ q → u ≤ v

/-- The summary of a pool describes it. -/
theorem row_describes (filled : m ≠ 0) {qs : List ℝ} (fractions : ∀ q ∈ qs, 0 ≤ q) :
    Describes m qs (row m qs) where
  each := List.length_map _
  between := by
    refine ⟨_, statistic_mem filled 0, _, statistic_mem filled (m.card - 1),
      fun x => mem_between filled, fun value mem => ?_⟩
    rcases List.mem_cons.mp mem with rfl | mem
    · exact mean_between filled
    · obtain ⟨q, asked, rfl⟩ := List.mem_map.mp mem
      exact quantile_between filled (fractions q asked)
  ordered j k p q u v first second left right below := by
    rw [row, List.getElem?_map, first] at left
    rw [row, List.getElem?_map, second] at right
    obtain rfl := Option.some.inj left
    obtain rfl := Option.some.inj right
    exact quantile_le filled (fractions p (List.mem_of_getElem? first)) below

end Pool

namespace Summary

/-- A point on the line between two numbers, from whichever end it is reckoned. -/
theorem between_eq (a b t : ℝ) : between a b t = a + (b - a) * t := by
  show (if decide (((1 : ℕ) : ℝ) ≤ t + t) = true then b - (b - a) * (((1 : ℕ) : ℝ) - t)
    else a + (b - a) * t) = _
  split
  · rw [Nat.cast_one]
    ring
  · rfl

/-- The quantiles of numbers in ascending order lie between neighbours. -/
theorem quantileOf_eq {sorted : List ℝ} (some : sorted ≠ []) (q : ℝ) :
    quantileOf sorted.toArray q =
      interpolated (fun k => sorted.getD (min k (sorted.length - 1)) 0)
        ((sorted.length - 1 : ℕ) * q) := by
  have there (k : ℕ) (inside : k < sorted.length) : sorted[k]? =
      .some (sorted.getD (min k (sorted.length - 1)) 0) := by
    rw [Nat.min_eq_left (by omega), List.getD_eq_getElem?_getD, List.getElem?_eq_getElem inside]
    rfl
  have positive := List.length_pos_iff.mpr some
  rw [quantileOf]
  simp only [List.size_toArray, List.getElem?_toArray]
  set place : ℝ := DrawNumber.ofNat (sorted.length - 1) * q
  by_cases behind : sorted.length - 1 ≤ DrawNumber.floor place
  · -- Behind the last number both neighbours are the last number.
    have low : sorted.length - 1 ≤ ⌊place⌋₊ := behind
    rw [if_pos behind, there _ (by omega)]
    show between _ _ (DrawNumber.ofNat 1) = interpolated _ place
    rw [between_eq, interpolated]
    simp only [Nat.min_self, Nat.min_eq_right low, Nat.min_eq_right (Nat.le_succ_of_le low),
      sub_self, zero_mul]
  · rw [if_neg behind, there _ (by omega), there _ (by omega)]
    show between _ _ (place - (⌊place⌋₊ : ℝ)) = interpolated _ place
    rw [between_eq]
    rfl

/-- The mean of numbers is that of their pool. -/
theorem mean_eq (xs : List ℝ) : mean xs = Pool.mean xs := by
  rw [mean, sum_eq]
  exact (congrArg (· / (xs.length : ℝ)) (Multiset.sum_coe xs).symm)

/-- The summary of numbers is that of their pool. -/
theorem row_eq (qs : List ℝ) {xs : List ℝ} (some : xs ≠ []) : row qs xs = Pool.row xs qs := by
  have positive := List.length_pos_iff.mpr some
  have deviation : DrawNumber.root (variance xs) = Pool.deviation xs := by
    have squares : (xs.map fun x => (x - Pool.mean xs) * (x - Pool.mean xs)) =
        xs.map fun x => (x - Pool.mean xs) ^ 2 := List.map_congr_left fun x _ => (sq _).symm
    rw [variance, mean_eq, sum_eq, Pool.deviation, Multiset.map_coe, Multiset.sum_coe,
      Multiset.coe_card, ← squares, ← Nat.cast_pred positive]
    rfl
  have each (q : ℝ) :
      quantileOf (xs.mergeSort DrawNumber.atMost).toArray q = Pool.quantile xs q := by
    have sorted : xs.mergeSort DrawNumber.atMost = Multiset.sort (xs : Multiset ℝ) (· ≤ ·) := rfl
    have filled : xs.mergeSort DrawNumber.atMost ≠ [] := by
      rw [← List.length_pos_iff, List.length_mergeSort]
      exact positive
    rw [quantileOf_eq filled, List.length_mergeSort, Pool.quantile, Multiset.coe_card]
    rfl
  have none : xs.any DrawNumber.isNone = false := by
    rw [List.any_eq_false]
    exact fun _ _ => Bool.false_ne_true
  rw [row, Pool.row, mean_eq, deviation, quantiles, none, if_neg Bool.false_ne_true]
  exact congrArg _ (List.map_congr_left fun q _ => each q)

end Summary

end Multilevel
