import Multilevel.Proofs.Number.Alike

/-!
# What unpacked numbers are worth

A binary64 number is read in two ways: by the fields of its bits, on which the exact rules of this
library are stated, and unpacked into a sign, a mantissa and an exponent, on which its operations are
defined. Both readings agree (`Number.reads`). So finite numbers compare as the rational numbers that
they are, and the integers among them are told by their values.
-/
namespace Multilevel.Number

open Float.Model (Format UnpackedFloat)
open Float.Model.UnpackedFloat

/-- Whether a sign is that of the negative numbers. -/
def isNegative : Sign → Bool
  | .negative => true
  | .positive => false

/-- Whether a mantissa and an exponent are those of a finite number: the mantissa has all its bits,
or the exponent is the least. -/
structure IsCanonical (m : Nat) (e : Int) : Prop where
  below : m < 2 ^ 53
  low : -1074 ≤ e
  high : e ≤ 971
  full : 2 ^ 52 ≤ m ∨ e = -1074

/-- Whether a reading by fields says of a number what its unpacked form says. -/
inductive Reads : UnpackedFloat → Reading → Prop
  | nan : Reads .notANumber .nan
  | infinite (s : Sign) : Reads (.infinity s) (.infinite (isNegative s))
  | zero (s : Sign) : Reads (.zero s) (.finite (isNegative s) 0 (-1074) false)
  | finite (s : Sign) {m : Nat} {e : Int} (positive : 0 < m) (lowest : Bool)
      (canonical : IsCanonical m e) :
      Reads (.finite s m e positive) (.finite (isNegative s) m e lowest)

section Fields

/-- The exponent field of a number. -/
theorem toNat_unpackExponent (x : Float) :
    (@unpackExponent Format.binary64 x.toBits.toBitVec).toNat =
      x.toBits.toNat / hiddenBit % 2048 := by
  simp [unpackExponent_def, Nat.shiftRight_eq_div_pow, hiddenBit]

/-- The fraction field of a number. -/
theorem toNat_unpackMantissa (x : Float) :
    (@unpackMantissa Format.binary64 x.toBits.toBitVec).toNat =
      x.toBits.toNat % hiddenBit := by
  simp [unpackMantissa_def, hiddenBit]

/-- The sign of a number. -/
theorem isNegative_unpackSign (x : Float) :
    isNegative (Sign.ofBitVec (@unpackSign Format.binary64 x.toBits.toBitVec)) =
      decide (2048 ≤ x.toBits.toNat / hiddenBit) := by
  have bound := x.toBits.toNat_lt
  have bit : (@unpackSign Format.binary64 x.toBits.toBitVec).toNat =
      x.toBits.toNat / 2 ^ 63 := by
    simp [unpackSign_def, Nat.shiftRight_eq_div_pow]
    omega
  have zero : @unpackSign Format.binary64 x.toBits.toBitVec = 0#1 ↔
      x.toBits.toNat < 2 ^ 63 := by
    rw [← BitVec.toNat_inj, bit]
    simp
  unfold Sign.ofBitVec
  simp only [zero, hiddenBit]
  split <;> simp only [isNegative] <;> grind

end Fields

/-- The two readings of a number agree. -/
theorem reads (x : Float) : Reads x.toModel.unpack (Reading.ofFloat x) := by
  change Reads (UnpackedFloat.unpack Format.binary64 x.toBits.toBitVec) _
  have exponent := toNat_unpackExponent x
  have fraction := toNat_unpackMantissa x
  have small : x.toBits.toNat % hiddenBit < 2 ^ 52 := Nat.mod_lt _ (by decide)
  have bound : x.toBits.toNat / hiddenBit % 2048 < 2048 := Nat.mod_lt _ (by decide)
  unfold UnpackedFloat.unpack Reading.ofFloat
  dsimp only
  rw [← isNegative_unpackSign x, ← exponent, ← fraction]
  rw [← exponent] at bound
  rw [← fraction] at small
  have last : @unpackExponent Format.binary64 x.toBits.toBitVec = -1#11 ↔
      (@unpackExponent Format.binary64 x.toBits.toBitVec).toNat = 2047 :=
    BitVec.toNat_inj.symm
  have first : @unpackExponent Format.binary64 x.toBits.toBitVec = 0#11 ↔
      (@unpackExponent Format.binary64 x.toBits.toBitVec).toNat = 0 :=
    BitVec.toNat_inj.symm
  have none : @unpackMantissa Format.binary64 x.toBits.toBitVec = 0#52 ↔
      (@unpackMantissa Format.binary64 x.toBits.toBitVec).toNat = 0 :=
    BitVec.toNat_inj.symm
  by_cases special : (@unpackExponent Format.binary64 x.toBits.toBitVec).toNat = 2047
  · rw [if_pos special, if_pos (last.mpr special)]
    by_cases empty : (@unpackMantissa Format.binary64 x.toBits.toBitVec).toNat = 0
    · rw [if_pos empty, if_pos (none.mpr empty)]
      exact .infinite _
    · rw [if_neg empty, if_neg (empty ∘ none.mp)]
      exact .nan
  rw [if_neg special, if_neg (special ∘ last.mp)]
  by_cases low : (@unpackExponent Format.binary64 x.toBits.toBitVec).toNat = 0
  · rw [if_pos low, if_pos (first.mpr low)]
    by_cases empty : (@unpackMantissa Format.binary64 x.toBits.toBitVec).toNat = 0
    · rw [dif_pos (none.mpr empty), empty]
      exact .zero _
    · rw [dif_neg (empty ∘ none.mp)]
      have power : ((@unpackExponent Format.binary64 x.toBits.toBitVec).toNat : Int) -
          ((Format.binary64.exponentBias : Int) + (52 : Nat)) + 1 = -1074 := by
        rw [low]
        rfl
      rw [← power]
      exact .finite _ _ _ ⟨by omega, power.ge, by rw [power]; decide, .inr power⟩
  · rw [if_neg low, if_neg (low ∘ first.mp)]
    have hidden : (1#1 ++ @unpackMantissa Format.binary64 x.toBits.toBitVec).toNat =
        hiddenBit + (@unpackMantissa Format.binary64 x.toBits.toBitVec).toNat := by
      rw [BitVec.toNat_append, ← Nat.shiftLeft_add_eq_or_of_lt (BitVec.isLt _)]
      rfl
    rw [← hidden]
    have size : hiddenBit = 2 ^ 52 := rfl
    have bias : (Format.binary64.exponentBias : Int) = 1023 := rfl
    refine .finite _ _ _ ⟨by omega, ?_, ?_, .inl (by omega)⟩ <;> omega

/-- The rational number that an unpacked number is; zero for those that are none. -/
def worth : UnpackedFloat → Rat
  | .finite s m e _ => (if isNegative s then -1 else 1) * (m * 2 ^ e)
  | _ => 0

/-- A significand times a power of two as a rational number. -/
theorem mkRat_ofBinary (m : Nat) (e : Int) :
    mkRat (Ratio.ofBinary m e).num (Ratio.ofBinary m e).den = (m : Rat) * 2 ^ e := by
  rw [Rat.mkRat_eq_div]
  unfold Ratio.ofBinary
  split
  · rename_i nonneg
    obtain ⟨k, rfl⟩ := Int.eq_ofNat_of_zero_le nonneg
    simp
  · rename_i negative
    obtain ⟨k, same⟩ := Int.eq_ofNat_of_zero_le (show 0 ≤ -e by omega)
    obtain rfl : e = -(k : Int) := by omega
    simp [zpow_neg, div_eq_mul_inv]

/-- The exact value of a number is what it is worth unpacked. -/
theorem exact_eq_worth (x : Float) : exact x = worth x.toModel.unpack := by
  have read := reads x
  unfold exact
  generalize x.toModel.unpack = u at read ⊢
  generalize Reading.ofFloat x = r at read ⊢
  cases read with
  | nan => rfl
  | infinite => rfl
  | zero s =>
    dsimp only [worth]
    rw [mkRat_ofBinary]
    simp
  | finite s positive lowest canonical =>
    dsimp only [worth]
    rw [mkRat_ofBinary]
    split <;> ring

/-- A number is finite exactly if it is a zero or has a mantissa. -/
theorem isFinite_iff {x : Float} : isFinite x = true ↔ (∃ s, x.toModel.unpack = .zero s) ∨
    ∃ s m e positive, x.toModel.unpack = .finite s m e positive ∧ IsCanonical m e := by
  have read := reads x
  unfold isFinite
  generalize x.toModel.unpack = u at read ⊢
  generalize Reading.ofFloat x = r at read ⊢
  cases read with
  | nan => simp
  | infinite => simp
  | zero s => simp
  | finite s positive lowest canonical =>
    simp only [true_iff]
    exact .inr ⟨s, _, _, positive, rfl, canonical⟩

/-- Of canonical magnitudes, that with the greater exponent is greater, or that with the greater
mantissa. -/
theorem IsCanonical.lt {m m' : Nat} {e e' : Int} (left : IsCanonical m e)
    (right : IsCanonical m' e') (before : e < e' ∨ e = e' ∧ m < m') :
    (m : Rat) * 2 ^ e < m' * 2 ^ e' := by
  rcases before with lower | ⟨rfl, less⟩
  · have full : 2 ^ 52 ≤ m' := right.full.resolve_right (by have := left.low; omega)
    have whole : ((2 ^ 52 : Nat) : Rat) ≤ m' := by exact_mod_cast full
    have below : (m : Rat) < ((2 ^ 53 : Nat) : Rat) := by exact_mod_cast left.below
    calc (m : Rat) * 2 ^ e < ((2 ^ 53 : Nat) : Rat) * 2 ^ e :=
          mul_lt_mul_of_pos_right below (by positivity)
      _ = ((2 ^ 52 : Nat) : Rat) * 2 ^ (e + 1) := by
          rw [zpow_add_one₀ two_ne_zero]
          push_cast
          ring
      _ ≤ m' * 2 ^ e' := by gcongr <;> first | assumption | norm_num
  · exact mul_lt_mul_of_pos_right (by exact_mod_cast less) (by positivity)

/-- Canonical magnitudes compare as their exponents do, and then as their mantissas. -/
theorem IsCanonical.compare {m m' : Nat} {e e' : Int} (left : IsCanonical m e)
    (right : IsCanonical m' e') :
    (Ord.compare e e').then (Ord.compare m m') =
      Ord.compare ((m : Rat) * 2 ^ e) (m' * 2 ^ e') := by
  rcases lt_trichotomy e e' with lower | rfl | higher
  · rw [compare_lt_iff_lt.mpr lower, compare_lt_iff_lt.mpr (left.lt right (.inl lower))]
    rfl
  · rw [Int.compare_eq_eq.mpr rfl, Ordering.then]
    rcases lt_trichotomy m m' with less | rfl | more
    · rw [compare_lt_iff_lt.mpr less, compare_lt_iff_lt.mpr (left.lt right (.inr ⟨rfl, less⟩))]
    · rw [compare_eq_iff_eq.mpr rfl, compare_eq_iff_eq.mpr rfl]
    · rw [compare_gt_iff_gt.mpr more, compare_gt_iff_gt.mpr (right.lt left (.inr ⟨rfl, more⟩))]
  · rw [compare_gt_iff_gt.mpr higher, compare_gt_iff_gt.mpr (right.lt left (.inl higher))]
    rfl

/-- What a number with a mantissa is worth. -/
theorem worth_finite (s : Sign) {m : Nat} (e : Int) (positive : 0 < m) :
    worth (.finite s m e positive) = (if isNegative s then -1 else 1) * (m * 2 ^ e) := rfl

/-- Negation turns a comparison round. -/
theorem swap_compare (a b : Rat) : (Ord.compare a b).swap = Ord.compare (-1 * a) (-1 * b) := by
  rcases lt_trichotomy a b with less | rfl | more
  · rw [compare_lt_iff_lt.mpr less, compare_gt_iff_gt.mpr (by linarith)]
    rfl
  · rw [compare_eq_iff_eq.mpr rfl, compare_eq_iff_eq.mpr rfl]
    rfl
  · rw [compare_gt_iff_gt.mpr more, compare_lt_iff_lt.mpr (by linarith)]
    rfl

/-- Finite numbers compare as the rational numbers that they are. -/
theorem compare_unpack {x y : Float} (left : isFinite x = true) (right : isFinite y = true) :
    UnpackedFloat.compare x.toModel.unpack y.toModel.unpack =
      some (Ord.compare (exact x) (exact y)) := by
  rw [exact_eq_worth, exact_eq_worth]
  have positive {m : Nat} (e : Int) (some : 0 < m) : (0 : Rat) < m * 2 ^ e := by positivity
  rcases isFinite_iff.mp left with ⟨s, own⟩ | ⟨s, m, e, some, own, inside⟩ <;>
    rcases isFinite_iff.mp right with ⟨s', other⟩ | ⟨s', m', e', some', other, inside'⟩ <;>
    rw [own, other]
  · simp [UnpackedFloat.compare, worth]
  · have low := positive e' some'
    cases s' <;> simp only [UnpackedFloat.compare, worth, isNegative, if_true, one_mul,
      Bool.false_eq_true, if_false, Option.some.injEq]
    · exact (compare_gt_iff_gt.mpr (by linarith)).symm
    · exact (compare_lt_iff_lt.mpr low).symm
  · have low := positive e some
    cases s <;> simp only [UnpackedFloat.compare, worth, isNegative, if_true, one_mul,
      Bool.false_eq_true, if_false, Option.some.injEq]
    · exact (compare_lt_iff_lt.mpr (by linarith)).symm
    · exact (compare_gt_iff_gt.mpr low).symm
  · have low := positive e some
    have low' := positive e' some'
    have magnitudes := inside.compare inside'
    cases s <;> cases s' <;> simp only [UnpackedFloat.compare, worth, isNegative, if_true, one_mul,
      Bool.false_eq_true, if_false, Option.some.injEq, magnitudes]
    · exact swap_compare _ _
    · exact (compare_lt_iff_lt.mpr (by linarith)).symm
    · exact (compare_gt_iff_gt.mpr (by linarith)).symm

/-- A finite number is less than another one if its value is. -/
theorem lt_iff {x y : Float} (left : isFinite x = true) (right : isFinite y = true) :
    x < y ↔ exact x < exact y := by
  have compared : x < y ↔
      UnpackedFloat.compare x.toModel.unpack y.toModel.unpack = some .lt := by
    rw [show x < y ↔ Float.lt x y = true from Iff.rfl, Float.lt, decide_eq_true_iff,
      show x.toModel < y.toModel ↔ Float.Model.lt x.toModel y.toModel = true from Iff.rfl,
      Float.Model.lt, UnpackedFloat.lt, beq_iff_eq]
  rw [compared, compare_unpack left right, Option.some.injEq, compare_lt_iff_lt]

/-- Numbers are equal as they are unpacked. -/
theorem beq_iff_compare {x y : Float} : (x == y) = true ↔
    UnpackedFloat.compare x.toModel.unpack y.toModel.unpack = some .eq := by
  rw [show (x == y) = true ↔ UnpackedFloat.beq x.toModel.unpack y.toModel.unpack = true from
    Iff.rfl, UnpackedFloat.beq, beq_iff_eq]

/-- Finite numbers are equal if their values are. -/
theorem beq_iff {x y : Float} (left : isFinite x = true) (right : isFinite y = true) :
    (x == y) = true ↔ exact x = exact y := by
  rw [beq_iff_compare, compare_unpack left right, Option.some.injEq, compare_eq_iff_eq]

/-- Positive infinity unpacked. -/
theorem unpack_infinity : (1.0 / 0.0 : Float).toModel.unpack = .infinity .positive := by
  have infinite : Reading.ofFloat (1.0 / 0.0) = .infinite false := by decide +kernel
  have read := reads (1.0 / 0.0)
  generalize (1.0 / 0.0 : Float).toModel.unpack = u at read ⊢
  generalize Reading.ofFloat (1.0 / 0.0) = r at read infinite
  cases read with
  | infinite s =>
    cases s with
    | positive => rfl
    | negative => cases infinite
  | _ => cases infinite

/-- Only positive infinity equals positive infinity. -/
theorem beq_infinity_iff {x : Float} :
    (x == 1.0 / 0.0) = true ↔ Reading.ofFloat x = .infinite false := by
  rw [beq_iff_compare, unpack_infinity]
  have read := reads x
  generalize x.toModel.unpack = u at read ⊢
  generalize Reading.ofFloat x = r at read ⊢
  cases read with
  | nan => simp [UnpackedFloat.compare]
  | infinite s => cases s <;> decide
  | zero s => simp [UnpackedFloat.compare]
  | finite s positive lowest canonical => cases s <;> simp [UnpackedFloat.compare]

/-- What the integer part and the test for integers see of a finite number: a sign and a ratio. -/
theorem exists_ratio {x : Float} (finite : isFinite x = true) :
    ∃ (negative : Bool) (r : Ratio), 0 < r.den ∧
      exact x = (if negative then -1 else 1) * (r.num / r.den : Rat) ∧
      truncate x = (if negative then -1 else 1) * (r.num / r.den : Nat) ∧
      isInteger x = (r.num % r.den == 0) := by
  unfold isFinite at finite
  unfold exact truncate isInteger
  cases read : Reading.ofFloat x with
  | nan => simp [read] at finite
  | infinite => simp [read] at finite
  | finite negative m e lowest =>
    refine ⟨negative, Ratio.ofBinary m e, ?_, ?_, ?_, rfl⟩
    · unfold Ratio.ofBinary
      split
      · exact Nat.one_pos
      · exact Nat.two_pow_pos _
    · dsimp only
      rw [Rat.mkRat_eq_div]
      split <;> simp
    · dsimp only
      split <;> simp

/-- A number is an integer exactly if it is finite and its value is one. -/
theorem isInteger_iff {x : Float} :
    isInteger x = true ↔ isFinite x = true ∧ ∃ n : Int, exact x = n := by
  by_cases finite : isFinite x = true
  · obtain ⟨negative, r, positive, value, _, whole⟩ := exists_ratio finite
    have some : (r.den : Rat) ≠ 0 := by exact_mod_cast positive.ne'
    rw [whole, beq_iff_eq, and_iff_right finite, ← Nat.dvd_iff_mod_eq_zero]
    constructor
    · rintro ⟨k, same⟩
      refine ⟨(if negative then -1 else 1) * k, ?_⟩
      rw [value, same]
      push_cast
      rw [mul_div_cancel_left₀ _ some]
    · rintro ⟨n, same⟩
      have product : (r.num : Rat) = (if negative then -n else n : Int) * r.den := by
        rw [← div_eq_iff some]
        rw [value] at same
        cases negative <;> simp only [if_true, Bool.false_eq_true, if_false] at same ⊢ <;>
          push_cast <;> linarith
      have divides : (r.den : Int) ∣ r.num := ⟨if negative then -n else n, by
        rw [mul_comm]
        exact_mod_cast product⟩
      exact Int.natCast_dvd_natCast.mp divides
  · have none : isInteger x = false := by
      unfold isFinite at finite
      unfold isInteger
      split <;> simp_all
    simp [finite, none]

/-- The integer part of an integer is the integer. -/
theorem truncate_eq {x : Float} (finite : isFinite x = true) {n : Int} (whole : exact x = n) :
    truncate x = n := by
  obtain ⟨negative, r, positive, value, part, test⟩ := exists_ratio finite
  have divides : r.num % r.den = 0 := by
    rw [← beq_iff_eq, ← test]
    exact isInteger_iff.mpr ⟨finite, n, whole⟩
  have some : (r.den : Rat) ≠ 0 := by exact_mod_cast positive.ne'
  have quotient : ((r.num / r.den : Nat) : Rat) = r.num / r.den :=
    Nat.cast_div (Nat.dvd_of_mod_eq_zero divides) some
  rw [whole, ← quotient] at value
  rw [part, ← Int.cast_inj (α := Rat), value]
  push_cast
  rfl

end Multilevel.Number
