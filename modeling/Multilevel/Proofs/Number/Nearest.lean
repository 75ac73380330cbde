import Multilevel.Proofs.Number.Unpacked

/-!
# The number nearest to an integer

An integer becomes the binary64 number nearest to it, the one with the even significand if two are
equally near (`Number.ofInt_spec`). Rounding shifts the mantissa to the right and keeps of what falls
off only how it compares with one half, which is all that the nearest integer depends on.

An integer that is converted to a binary64 number and stored in a 64-bit word becomes the nearest
integer with 53 bits, or the least word if that one does not fit. It stays what it is exactly if it has
no more than 53 bits but for zeros behind them, and fits.
-/
namespace Multilevel.Number

open Float.Model (Format UnpackedFloat totalExponent)
open Float.Model.UnpackedFloat

section Rounding

/-- Whether an extended mantissa is what is left of a mantissa divided by a power of two: the
quotient, and how the rest compares with one half. -/
structure IsQuotient (em : ExtendedMantissa) (m d : Nat) : Prop where
  mantissa : em.mantissa = m / d
  accuracy : em.accuracy = if m % d = 0 then .exact else .inexact (compare (2 * (m % d)) d)

/-- A mantissa is its own quotient by one. -/
theorem isQuotient_one (m : Nat) :
    IsQuotient (ExtendedMantissa.ofMantissaAndAccuracy m .exact) m 1 := by
  refine ⟨(Nat.div_one m).symm, ?_⟩
  rw [Nat.mod_one, if_pos rfl]
  rfl

/-- A shift by one place divides by two. -/
theorem IsQuotient.shiftRightOne {em : ExtendedMantissa} {m d : Nat} (quotient : IsQuotient em m d)
    (positive : 0 < d) : IsQuotient em.shiftRightOne m (d * 2) := by
  obtain ⟨mantissa, accuracy⟩ := quotient
  have small := Nat.mod_lt m positive
  have rest : m % (d * 2) = m % d + d * (m / d % 2) := Nat.mod_mul
  refine ⟨by rw [ExtendedMantissa.shiftRightOne, mantissa, Nat.div_div_eq_div_mul], ?_⟩
  have lost : (em.roundBit || em.stickyBit) = (m % d != 0) := by
    obtain ⟨q, roundBit, stickyBit⟩ := em
    cases roundBit <;> cases stickyBit <;> rw [ExtendedMantissa.accuracy] at accuracy <;>
      split at accuracy <;> simp_all
  -- What falls off next is the last bit of the quotient, before all that fell off already.
  rw [rest, ExtendedMantissa.shiftRightOne, lost, mantissa]
  rcases Nat.mod_two_eq_zero_or_one (m / d) with even | odd <;>
    by_cases none : m % d = 0
  · simp [even, none, ExtendedMantissa.accuracy]
  · have less : compare (2 * (m % d)) (d * 2) = .lt := Nat.compare_eq_lt.mpr (by omega)
    rw [bne_iff_ne.mpr none]
    simp [even, none, less, ExtendedMantissa.accuracy]
  · have same : compare (2 * d) (d * 2) = .eq := Nat.compare_eq_eq.mpr (by omega)
    simp [odd, none, same, positive.ne', ExtendedMantissa.accuracy]
  · have more : compare (2 * (m % d + d)) (d * 2) = .gt := Nat.compare_eq_gt.mpr (by omega)
    rw [bne_iff_ne.mpr none]
    simp [odd, none, more, ExtendedMantissa.accuracy]

/-- A shift by some places divides by a power of two. -/
theorem isQuotient_shiftRight (m k : Nat) :
    IsQuotient (ExtendedMantissa.ofMantissaAndAccuracy m .exact >>> k) m (2 ^ k) := by
  induction k with
  | zero => exact isQuotient_one m
  | succ k ih => exact ih.shiftRightOne (Nat.two_pow_pos k)

/-- The nearest integer is told by the quotient and the rest. -/
theorem IsQuotient.roundedMantissa {em : ExtendedMantissa} {m d : Nat}
    (quotient : IsQuotient em m d) (positive : 0 < d) : em.roundedMantissa = (Ratio.mk m d).round := by
  rw [ExtendedMantissa.roundedMantissa, quotient.accuracy, quotient.mantissa, Ratio.round]
  dsimp only
  by_cases none : m % d = 0
  · simp [none, positive, Accuracy.roundToNearestEven]
  rw [if_neg none]
  rcases lt_trichotomy (2 * (m % d)) d with less | same | more
  · rw [Nat.compare_eq_lt.mpr less]
    simp [less, Accuracy.roundToNearestEven]
  · rw [Nat.compare_eq_eq.mpr same]
    rcases Nat.mod_two_eq_zero_or_one (m / d) with even | odd <;>
      simp [*, Accuracy.roundToNearestEven]
  · rw [Nat.compare_eq_gt.mpr more]
    simp [more.not_gt, more.ne', Accuracy.roundToNearestEven]

/-- The nearest integer is the integer part or the next one. -/
theorem round_bounds (m d : Nat) :
    m / d ≤ (Ratio.mk m d).round ∧ (Ratio.mk m d).round ≤ m / d + 1 := by
  unfold Ratio.round
  dsimp only
  split <;> omega

/-- What is left of a natural number with at least 53 bits when all others have fallen off. -/
theorem div_bounds {m : Nat} (full : 52 ≤ m.log2) :
    2 ^ 52 ≤ m / 2 ^ (m.log2 - 52) ∧ m / 2 ^ (m.log2 - 52) < 2 ^ 53 := by
  have some : m ≠ 0 := by
    rintro rfl
    simp at full
  have low := Nat.log2_self_le some
  have high := @Nat.lt_log2_self m
  have positive := Nat.two_pow_pos (m.log2 - 52)
  constructor
  · rw [Nat.le_div_iff_mul_le positive, ← Nat.pow_add, Nat.add_sub_cancel' full]
    exact low
  · rw [Nat.div_lt_iff_lt_mul positive, ← Nat.pow_add,
      show 53 + (m.log2 - 52) = m.log2 + 1 by omega]
    exact high

/-- A mantissa with enough bits is shifted until 53 are left. -/
theorem shiftToTargetExponent_eq {m : Nat} {e : Int} (full : 52 ≤ m.log2)
    (low : -1022 ≤ m.log2 + e) :
    shiftToTargetExponent Format.binary64 m e .exact =
      (ExtendedMantissa.ofMantissaAndAccuracy m .exact >>> (m.log2 - 52),
        e + (m.log2 - 52 : Nat)) := by
  have target : Format.binary64.targetExponent (totalExponent m e) = m.log2 + e - 52 := by
    simp only [Format.targetExponent, totalExponent, Format.mantissaBits, Format.minExponent]
    omega
  have shift : ((m.log2 : Int) + e - 52 - e).toNat = m.log2 - 52 := by omega
  rw [shiftToTargetExponent, target, shiftToExponent, shift]

/-- Rounding a mantissa with enough bits gives the number whose significand is the nearest one. -/
theorem exists_roundWithAccuracy (s : Sign) {m : Nat} {e : Int} (full : 52 ≤ m.log2)
    (low : -1022 ≤ m.log2 + e) (high : m.log2 + e ≤ 1022) :
    ∃ m' e' positive, roundWithAccuracy Format.binary64 s m e .exact = .finite s m' e' positive ∧
      2 ^ 52 ≤ m' ∧ IsCanonical m' e' ∧ (m' : Rat) * 2 ^ e' =
        (Ratio.mk m (2 ^ (m.log2 - 52))).round * 2 ^ (e + (m.log2 - 52 : Nat)) := by
  obtain ⟨least, most⟩ := div_bounds full
  obtain ⟨lower, upper⟩ := round_bounds m (2 ^ (m.log2 - 52))
  have rounded := (isQuotient_shiftRight m (m.log2 - 52)).roundedMantissa (Nat.two_pow_pos _)
  generalize (Ratio.mk m (2 ^ (m.log2 - 52))).round = r at lower upper rounded ⊢
  have places : r.log2 = 52 ∨ r = 2 ^ 53 := by
    rcases Nat.lt_or_ge r (2 ^ 53) with less | more
    · exact .inl ((Nat.log2_eq_iff (by omega)).mpr ⟨by omega, less⟩)
    · exact .inr (by omega)
  have enough : 52 ≤ r.log2 := by
    rcases places with same | rfl
    · exact same.ge
    · rw [Nat.log2_two_pow]
      decide
  -- Rounding up to the next power of two takes one more shift, which loses nothing.
  have second := shiftToTargetExponent_eq (e := e + (m.log2 - 52 : Nat)) enough (by omega)
  have left := (isQuotient_shiftRight r (r.log2 - 52)).mantissa
  have first := shiftToTargetExponent_eq full low
  have found : roundWithAccuracy Format.binary64 s m e .exact =
      if h : r / 2 ^ (r.log2 - 52) = 0 then .zero s
      else .finite s (r / 2 ^ (r.log2 - 52)) (e + (m.log2 - 52 : Nat) + (r.log2 - 52 : Nat))
        (Nat.pos_of_ne_zero h) := by
    unfold roundWithAccuracy
    simp only [first, rounded, second, left]
  have divides : 2 ^ (r.log2 - 52) * (r / 2 ^ (r.log2 - 52)) = r ∧ r.log2 ≤ 53 ∧
      2 ^ 52 ≤ r / 2 ^ (r.log2 - 52) ∧ r / 2 ^ (r.log2 - 52) < 2 ^ 53 := by
    refine ⟨?_, ?_, div_bounds enough⟩ <;> rcases places with same | rfl
    · rw [same, Nat.sub_self, pow_zero, Nat.div_one, one_mul]
    · rw [Nat.log2_two_pow]
      decide
    · omega
    · rw [Nat.log2_two_pow]
  obtain ⟨product, few, more, fewer⟩ := divides
  have some : r / 2 ^ (r.log2 - 52) ≠ 0 := by omega
  refine ⟨_, _, Nat.pos_of_ne_zero some, by rw [found, dif_neg some], more,
    ⟨fewer, by omega, by omega, .inl more⟩, ?_⟩
  rw [zpow_add₀ two_ne_zero (e + _), zpow_natCast]
  conv_rhs => rw [← product]
  push_cast
  ring

/-- A number that is packed from a mantissa with all its bits is unpacked again. -/
theorem unpack_pack (s : Sign) {m : Nat} {e : Int} (positive : 0 < m) (canonical : IsCanonical m e)
    (full : 2 ^ 52 ≤ m) :
    (Float.Model.pack (.finite s m e positive)).unpack = .finite s m e positive := by
  obtain ⟨below, low, high, _⟩ := canonical
  have places : m.log2 + 1 = Format.binary64.mantissaBits := by
    rw [(Nat.log2_eq_iff (by omega)).mpr ⟨full, below⟩]
    rfl
  have bias : (e + (Format.binary64.exponentBias : Int) +
      (Format.binary64.mantissaBitsWithoutImplicit : Int)).toNat = (e + 1075).toNat := by
    change (e + 1023 + 52).toNat = _
    omega
  have field : (BitVec.ofNat 11 (e + 1075).toNat).toNat = (e + 1075).toNat := by
    rw [BitVec.toNat_ofNat]
    omega
  have last : BitVec.ofNat 11 (e + 1075).toNat ≠ -1#11 := fun same => by
    have other := field.symm.trans (congrArg BitVec.toNat same)
    change (e + 1075).toNat = 2047 at other
    omega
  have first : BitVec.ofNat 11 (e + 1075).toNat ≠ 0#11 := fun same => by
    have other := field.symm.trans (congrArg BitVec.toNat same)
    change (e + 1075).toNat = 0 at other
    omega
  have hidden : (1#1 ++ BitVec.ofNat 52 m).toNat = m := by
    rw [BitVec.toNat_append, ← Nat.shiftLeft_add_eq_or_of_lt (BitVec.isLt _), BitVec.toNat_ofNat]
    change 2 ^ 52 + m % 2 ^ 52 = m
    omega
  have power : ((e + 1075).toNat : Int) - ((Format.binary64.exponentBias : Int) +
      (Format.binary64.mantissaBitsWithoutImplicit : Int)) = e := by
    change ((e + 1075).toNat : Int) - (1023 + 52) = e
    omega
  have sign : Sign.ofBitVec s.toBitVec = s := by cases s <;> rfl
  have small : ¬2 ^ Format.binary64.exponentBits ≤ (e + 1075).toNat + 1 := by
    change ¬2048 ≤ (e + 1075).toNat + 1
    omega
  have packed : UnpackedFloat.pack Format.binary64 (.finite s m e positive) =
      packComponents Format.binary64 s (BitVec.ofNat 11 (e + 1075).toNat) (BitVec.ofNat 52 m) := by
    unfold UnpackedFloat.pack
    simp only [bias, if_neg small, if_pos places]
  change UnpackedFloat.unpack Format.binary64 (UnpackedFloat.pack Format.binary64 _) = _
  rw [packed]
  simp only [UnpackedFloat.unpack, unpackMantissa_packComponents, unpackExponent_packComponents,
    unpackSign_packComponents, if_neg last, if_neg first, hidden, field, power, sign]

end Rounding

/-- The natural number with 53 bits, and no others but zeros behind them, that is nearest to a natural
number. -/
def nearestNat (n : Nat) : Nat := (Ratio.mk n (2 ^ (n.log2 - 52))).round * 2 ^ (n.log2 - 52)

/-- Zeros behind a number add to its bits. -/
theorem log2_mul_two_pow {m : Nat} (some : m ≠ 0) (k : Nat) : (m * 2 ^ k).log2 = m.log2 + k := by
  induction k with
  | zero => rw [pow_zero, mul_one, Nat.add_zero]
  | succ k ih =>
    rw [pow_succ, ← mul_assoc, mul_comm, Nat.log2_two_mul (by positivity), ih]
    rfl

/-- The nearest integer to a ratio does not depend on the terms in which it is given. -/
theorem round_mul (m : Nat) {d c : Nat} (positive : 0 < c) :
    (Ratio.mk (m * c) (d * c)).round = (Ratio.mk m d).round := by
  unfold Ratio.round
  dsimp only
  rw [Nat.mul_div_mul_right _ _ positive, Nat.mul_mod_mul_right, ← mul_assoc]
  have less : 2 * (m % d) * c < d * c ↔ 2 * (m % d) < d := Nat.mul_lt_mul_right positive
  have same : 2 * (m % d) * c = d * c ↔ 2 * (m % d) = d := Nat.mul_left_inj positive.ne'
  simp only [less, same, beq_iff_eq, Bool.or_eq_true, Bool.and_eq_true, decide_eq_true_eq]

/-- The nearest integer to an integer is the integer. -/
theorem round_one (m : Nat) : (Ratio.mk m 1).round = m := by
  have bounds := round_bounds m 1
  have near := Ratio.round_near ⟨m, 1⟩ Nat.one_pos
  dsimp only at near
  omega

/-- A rounded number is packed and unpacked as it is. -/
theorem exists_unpack_round (s : Sign) {m : Nat} {e : Int} (full : 52 ≤ m.log2)
    (low : -1022 ≤ m.log2 + e) (high : m.log2 + e ≤ 1022) :
    ∃ m' e' positive,
      (Float.Model.pack (roundWithAccuracy Format.binary64 s m e .exact)).unpack =
        .finite s m' e' positive ∧ 2 ^ 52 ≤ m' ∧ IsCanonical m' e' ∧
      (m' : Rat) * 2 ^ e' = (Ratio.mk m (2 ^ (m.log2 - 52))).round * 2 ^ (e + (m.log2 - 52 : Nat)) := by
  obtain ⟨m', e', positive, rounded, more, canonical, value⟩ :=
    exists_roundWithAccuracy s full low high
  exact ⟨m', e', positive, by rw [rounded, unpack_pack s positive canonical more], more, canonical,
    value⟩

/-- A natural number of at most 53 bits is the nearest one to itself. -/
theorem nearestNat_of_small {n : Nat} (small : n < 2 ^ 53) : nearestNat n = n := by
  have places : n.log2 - 52 = 0 := by
    rcases Nat.eq_zero_or_pos n with rfl | positive
    · rfl
    · have := (Nat.log2_lt positive.ne').mpr small
      omega
  rw [nearestNat, places, pow_zero, round_one, mul_one]

/-- A natural number of more than 53 bits becomes a binary64 number by one rounding. -/
theorem unpack_ofNat_of_large {n : Nat} (large : 2 ^ 53 ≤ n) :
    (Float.ofNat n).toModel =
      Float.Model.pack (roundWithAccuracy Format.binary64 .positive (n * 2 ^ 53) (-53) .exact) := by
  have some : n ≠ 0 := by omega
  change (Float.ofScientific n false 0).toModel = _
  rw [Float.ofScientific, dif_neg (by omega)]
  change Float.Model.pack (UnpackedFloat.ofScientific Format.binary64 n 0) = _
  have far : ¬(0 : Int) < -(2 ^ Format.binary64.exponentBits + (n.log2 : Int)) := by
    change ¬(0 : Int) < -(2048 + (n.log2 : Int))
    omega
  have sign : Sign.positive * Sign.positive = .positive := rfl
  rw [UnpackedFloat.ofScientific, dif_neg some, if_neg (by decide), if_neg far, if_pos le_rfl]
  simp only [UnpackedFloat.mul, sign, Int.toNat_zero, pow_zero, mul_one, add_zero,
    Nat.shiftLeft_eq]
  rfl

/-- A natural number in a word of at most 53 bits becomes a binary64 number by shifting. -/
theorem exists_unpack_toFloat {word : UInt64} (some : word.toNat ≠ 0)
    (small : word.toNat < 2 ^ 53) :
    ∃ m e positive, word.toFloat.toModel.unpack = .finite .positive m e positive ∧
      2 ^ 52 ≤ m ∧ IsCanonical m e ∧ (m : Rat) * 2 ^ e = word.toNat := by
  have few : word.toNat.log2 < 53 := (Nat.log2_lt some).mpr small
  have above : compare (word.toNat : Int) 0 = .gt := Int.compare_eq_gt.mpr (by omega)
  have target : Format.binary64.targetExponent (totalExponent word.toNat 0) =
      (word.toNat.log2 : Int) - 52 := by
    simp only [Format.targetExponent, totalExponent, Format.mantissaBits, Format.minExponent]
    omega
  have shift : (0 - ((word.toNat.log2 : Int) - 52)).toNat = 52 - word.toNat.log2 := by omega
  have made : word.toFloat.toModel = Float.Model.pack (roundWithAccuracy Format.binary64 .positive
      (word.toNat * 2 ^ (52 - word.toNat.log2)) (0 - (52 - word.toNat.log2 : Nat)) .exact) := by
    change Float.Model.pack (UnpackedFloat.ofUInt64 Format.binary64 word) = _
    simp only [UnpackedFloat.ofUInt64, UnpackedFloat.ofNat, UnpackedFloat.ofInt,
      UnpackedFloat.normalize, above, UnpackedFloat.round, Int.toNat_natCast, target, decreaseExponent, shift, Nat.shiftLeft_eq]
  have places := log2_mul_two_pow some (52 - word.toNat.log2)
  have full : (word.toNat * 2 ^ (52 - word.toNat.log2)).log2 = 52 := by omega
  obtain ⟨m, e, positive, unpacked, more, canonical, value⟩ := exists_unpack_round .positive
    (e := 0 - (52 - word.toNat.log2 : Nat)) full.ge (by omega) (by omega)
  refine ⟨m, e, positive, by rw [made, unpacked], more, canonical, ?_⟩
  rw [value, full, Nat.sub_self, pow_zero, round_one, zero_sub, Nat.cast_zero, add_zero, zpow_neg,
    zpow_natCast]
  push_cast
  rw [mul_assoc, mul_inv_cancel₀ (by positivity), mul_one]

/-- A product with one is rounded to the number itself. -/
theorem exists_unpack_mul_one {x : Float} {m : Nat} {e : Int} {positive : 0 < m}
    (unpacked : x.toModel.unpack = .finite .positive m e positive) (full : 2 ^ 52 ≤ m)
    (canonical : IsCanonical m e) (high : e ≤ 900) (low : -900 ≤ e) :
    ∃ m' e' positive', (x * Float.exactlyRepresentablePowersOfTen[0]).toModel.unpack =
        .finite .positive m' e' positive' ∧ 2 ^ 52 ≤ m' ∧ IsCanonical m' e' ∧
      (m' : Rat) * 2 ^ e' = m * 2 ^ e := by
  have one : (Float.exactlyRepresentablePowersOfTen[0]).toModel.unpack =
      .finite .positive (2 ^ 52) (-52) (by decide) := rfl
  have sign : Sign.positive * Sign.positive = .positive := rfl
  have made : (x * Float.exactlyRepresentablePowersOfTen[0]).toModel = Float.Model.pack
      (roundWithAccuracy Format.binary64 .positive (m * 2 ^ 52) (e + -52) .exact) := by
    change Float.Model.mul x.toModel _ = _
    rw [Float.Model.mul, unpacked, one, UnpackedFloat.mul, sign]
  have some : m ≠ 0 := positive.ne'
  have places := log2_mul_two_pow some 52
  have own : m.log2 = 52 := (Nat.log2_eq_iff some).mpr ⟨full, canonical.below⟩
  obtain ⟨m', e', positive', unpacked', full', canonical', value⟩ := exists_unpack_round .positive
    (m := m * 2 ^ 52) (e := e + -52) (by omega) (by omega) (by omega)
  refine ⟨m', e', positive', by rw [made, unpacked'], full', canonical', ?_⟩
  rw [value, places, own]
  have nearest : (Ratio.mk (m * 2 ^ 52) (2 ^ (52 + 52 - 52))).round = m := by
    have scaled := round_mul m (d := 1) (c := 2 ^ 52) (by decide)
    rwa [one_mul, round_one] at scaled
  rw [nearest, show e + -52 + ((52 + 52 - 52 : Nat) : Int) = e by omega]

/-- A natural number of at most 53 bits becomes the binary64 number that it is. -/
theorem exists_unpack_ofNat_of_small {n : Nat} (some : n ≠ 0) (small : n < 2 ^ 53) :
    ∃ m e positive, (Float.ofNat n).toModel.unpack = .finite .positive m e positive ∧
      2 ^ 52 ≤ m ∧ IsCanonical m e ∧ (m : Rat) * 2 ^ e = n := by
  have word : n.toUInt64.toNat = n := by
    change n % 2 ^ 64 = n
    omega
  have made : Float.ofNat n = n.toUInt64.toFloat * Float.exactlyRepresentablePowersOfTen[0] := by
    change Float.ofScientific n false 0 = _
    rw [Float.ofScientific, dif_pos ⟨small, by decide⟩]
    rfl
  obtain ⟨m, e, positive, unpacked, full, canonical, value⟩ :=
    exists_unpack_toFloat (word.trans_ne some) (word.trans_lt small)
  rw [word] at value
  -- The value lies between one and the power of two behind all numbers of 53 bits.
  have low : -52 ≤ e := by
    by_contra less
    have one : IsCanonical (2 ^ 52) (-52) := ⟨by decide, by decide, by decide, .inl le_rfl⟩
    have below := canonical.lt one (.inl (by omega))
    rw [value] at below
    norm_num at below
    exact some below
  have high : e ≤ 1 := by
    by_contra more
    have above := IsCanonical.lt (m := 2 ^ 52) (e := 1)
      ⟨by decide, by decide, by decide, .inl le_rfl⟩ canonical (.inl (by omega))
    rw [value] at above
    have whole : 2 ^ 52 * 2 < n := by exact_mod_cast above
    omega
  obtain ⟨m', e', positive', unpacked', full', canonical', value'⟩ :=
    exists_unpack_mul_one unpacked full canonical (by omega) (by omega)
  exact ⟨m', e', positive', by rw [made, unpacked'], full', canonical', value'.trans value⟩

/-- The binary64 number made of a natural number, unpacked: the nearest one. -/
theorem exists_unpack_ofNat {n : Nat} (some : n ≠ 0) (bound : n.log2 ≤ 1000) :
    ∃ m e positive, (Float.ofNat n).toModel.unpack = .finite .positive m e positive ∧
      2 ^ 52 ≤ m ∧ IsCanonical m e ∧ (m : Rat) * 2 ^ e = nearestNat n := by
  rcases Nat.lt_or_ge n (2 ^ 53) with small | large
  · rw [nearestNat_of_small small]
    exact exists_unpack_ofNat_of_small some small
  · have places := log2_mul_two_pow some 53
    have full : 53 ≤ n.log2 := (Nat.le_log2 some).mpr large
    obtain ⟨m, e, positive, unpacked, more, canonical, value⟩ := exists_unpack_round .positive
      (m := n * 2 ^ 53) (e := -53) (by omega) (by omega) (by omega)
    refine ⟨m, e, positive, by rw [unpack_ofNat_of_large large, unpacked], more, canonical, ?_⟩
    rw [value, places, nearestNat, show n.log2 + 53 - 52 = n.log2 - 52 + 53 by omega, pow_add,
      round_mul n (Nat.two_pow_pos 53), show (-53 : Int) + (n.log2 - 52 + 53 : Nat) =
        (n.log2 - 52 : Nat) by omega, zpow_natCast]
    push_cast
    rfl

/-- The integer with a significand of 53 bits that is nearest to an integer. -/
def nearest (n : Int) : Int := n.sign * nearestNat n.natAbs

/-- An integer of whatever sign becomes the nearest binary64 number. -/
theorem ofInt_spec {n : Int} (bound : n.natAbs.log2 ≤ 1000) :
    isFinite (ofInt n) = true ∧ exact (ofInt n) = nearest n := by
  rw [exact_eq_worth, isFinite_iff]
  rcases n with n | n
  · rcases Nat.eq_zero_or_pos n with rfl | some
    · have zero : (ofInt (.ofNat 0)).toModel.unpack = .zero .positive := rfl
      rw [zero]
      exact ⟨.inl ⟨_, rfl⟩, rfl⟩
    · obtain ⟨m, e, positive, unpacked, _, canonical, value⟩ :=
        exists_unpack_ofNat some.ne' bound
      have made : (ofInt (.ofNat n)).toModel.unpack = .finite .positive m e positive := unpacked
      rw [made]
      refine ⟨.inr ⟨_, m, e, positive, rfl, canonical⟩, ?_⟩
      rw [worth_finite, value, nearest, Int.sign_eq_one_of_pos (by simpa using some)]
      simp [isNegative]
  · obtain ⟨m, e, positive, unpacked, full, canonical, value⟩ :=
      exists_unpack_ofNat n.succ_ne_zero bound
    have made : (ofInt (.negSucc n)).toModel.unpack = .finite .negative m e positive := by
      change (Float.Model.pack (Float.ofNat n.succ).toModel.unpack.neg).unpack = _
      rw [unpacked]
      exact unpack_pack .negative positive canonical full
    rw [made]
    refine ⟨.inr ⟨_, m, e, positive, rfl, canonical⟩, ?_⟩
    rw [worth_finite, value, nearest]
    simp [isNegative]

/-- Whether an integer has at most 53 bits but for zeros behind them. -/
def IsShort (n : Int) : Prop := ∃ m k : Nat, n.natAbs = m * 2 ^ k ∧ m < 2 ^ 53

/-- An integer as it is stored in a 64-bit word by way of a binary64 number. -/
def storedWord (n : Int) : Int := if isWord (nearest n) then nearest n else -halfWords

section Nearest

variable {n : Nat}

/-- A number with more than 53 bits lies in the same binade as the nearest one, or just below the next
binade where that one starts. -/
theorem nearestNat_bounds (full : 52 ≤ n.log2) :
    2 ^ n.log2 ≤ nearestNat n ∧ nearestNat n ≤ 2 ^ (n.log2 + 1) := by
  obtain ⟨least, most⟩ := div_bounds full
  obtain ⟨lower, upper⟩ := round_bounds n (2 ^ (n.log2 - 52))
  have low : 2 ^ n.log2 = 2 ^ 52 * 2 ^ (n.log2 - 52) := by
    rw [← pow_add, Nat.add_sub_cancel' full]
  have high : 2 ^ (n.log2 + 1) = 2 ^ 53 * 2 ^ (n.log2 - 52) := by
    rw [← pow_add]
    congr 1
    omega
  rw [nearestNat, low, high]
  exact ⟨Nat.mul_le_mul_right _ (least.trans lower), Nat.mul_le_mul_right _ (by omega)⟩

/-- A number that is not small is not nearest to a small one. -/
theorem nearestNat_of_large (large : 2 ^ 53 ≤ n) : 2 ^ 53 ≤ nearestNat n := by
  have full : 53 ≤ n.log2 := (Nat.le_log2 (by omega)).mpr large
  exact (Nat.pow_le_pow_right (by decide) full).trans (nearestNat_bounds (by omega)).1

/-- A number times a power of two is nearest to itself if it has 53 bits. -/
theorem nearestNat_mul_two_pow {m : Nat} (few : m < 2 ^ 53) (k : Nat) :
    nearestNat (m * 2 ^ k) = m * 2 ^ k := by
  rcases Nat.eq_zero_or_pos m with rfl | some
  · rw [zero_mul]
    rfl
  have places := log2_mul_two_pow some.ne' k
  have less := (Nat.log2_lt some.ne').mpr few
  have parts : m * 2 ^ k = m * 2 ^ (k - ((m * 2 ^ k).log2 - 52)) * 2 ^ ((m * 2 ^ k).log2 - 52) := by
    rw [mul_assoc, ← pow_add]
    congr 2
    omega
  have nearest := round_mul (m * 2 ^ (k - ((m * 2 ^ k).log2 - 52))) (d := 1)
    (Nat.two_pow_pos ((m * 2 ^ k).log2 - 52))
  rw [← parts, one_mul, round_one] at nearest
  rw [nearestNat, nearest, ← parts]

/-- A number is the nearest one to itself exactly if it has 53 bits but for zeros behind them. -/
theorem nearestNat_eq_self_iff : nearestNat n = n ↔ ∃ m k, n = m * 2 ^ k ∧ m < 2 ^ 53 := by
  constructor
  · intro same
    rcases Nat.lt_or_ge n.log2 52 with few | full
    · rcases Nat.eq_zero_or_pos n with rfl | some
      · exact ⟨0, 0, rfl, by decide⟩
      · exact ⟨n, 0, by simp, (Nat.log2_lt some.ne').mp (by omega)⟩
    · obtain ⟨least, most⟩ := div_bounds full
      obtain ⟨lower, upper⟩ := round_bounds n (2 ^ (n.log2 - 52))
      rw [nearestNat] at same
      rcases Nat.lt_or_ge (Ratio.mk n (2 ^ (n.log2 - 52))).round (2 ^ 53) with less | more
      · exact ⟨_, _, same.symm, less⟩
      · refine ⟨1, 53 + (n.log2 - 52), ?_, by decide⟩
        rw [show (Ratio.mk n (2 ^ (n.log2 - 52))).round = 2 ^ 53 by omega, ← pow_add] at same
        rw [one_mul, same]
  · rintro ⟨m, k, rfl, few⟩
    exact nearestNat_mul_two_pow few k

/-- Only zero is nearest to zero. -/
theorem nearestNat_eq_zero_iff : nearestNat n = 0 ↔ n = 0 := by
  rcases Nat.lt_or_ge n (2 ^ 53) with small | large
  · rw [nearestNat_of_small small]
  · have := nearestNat_of_large large
    omega

/-- Numbers from halfway between the two last ones with 53 bits on are too large for a word. -/
theorem nearestNat_lt_iff : nearestNat n < 2 ^ 63 ↔ n < 2 ^ 63 - 512 := by
  rcases Nat.eq_zero_or_pos n with rfl | some
  · decide
  have low := Nat.log2_self_le some.ne'
  have high := @Nat.lt_log2_self n
  rcases Nat.lt_trichotomy n.log2 62 with less | same | more
  · have bound : 2 ^ (n.log2 + 1) ≤ 2 ^ 62 := Nat.pow_le_pow_right (by decide) (by omega)
    rcases Nat.lt_or_ge n.log2 52 with few | full
    · rw [nearestNat_of_small ((Nat.log2_lt some.ne').mp (by omega))]
      omega
    · have := (nearestNat_bounds full).2
      omega
  · rw [same] at low high
    rw [nearestNat, same]
    unfold Ratio.round
    dsimp only
    simp only [Bool.or_eq_true, decide_eq_true_eq, Bool.and_eq_true, beq_iff_eq]
    split <;> omega
  · have bound : 2 ^ 63 ≤ 2 ^ n.log2 := Nat.pow_le_pow_right (by decide) (by omega)
    have := (nearestNat_bounds (n := n) (by omega)).1
    omega

end Nearest

variable {n : Int}

/-- An integer is the nearest one to itself exactly if it has 53 bits but for zeros behind them. -/
theorem nearest_eq_self_iff : nearest n = n ↔ IsShort n := by
  rw [IsShort, ← nearestNat_eq_self_iff, nearest]
  rcases lt_trichotomy n 0 with negative | rfl | positive
  · rw [Int.sign_eq_neg_one_of_neg negative]
    omega
  · exact iff_of_true rfl rfl
  · rw [Int.sign_eq_one_of_pos positive]
    omega

/-- An integer has the sign of the nearest one. -/
theorem nearest_neg_iff : nearest n < 0 ↔ n < 0 := by
  have none := nearestNat_eq_zero_iff (n := n.natAbs)
  rw [nearest]
  rcases lt_trichotomy n 0 with negative | rfl | positive
  · rw [Int.sign_eq_neg_one_of_neg negative]
    omega
  · exact Iff.rfl
  · rw [Int.sign_eq_one_of_pos positive]
    omega

/-- Rounding makes no number negative, nor takes its sign away. -/
theorem nearest_nonneg_iff : 0 ≤ nearest n ↔ 0 ≤ n := by
  rw [← not_lt, nearest_neg_iff, not_lt]

/-- A small integer is the nearest one to itself, and not nearest to others. -/
theorem nearest_eq_iff {k : Int} (small : k.natAbs < 2 ^ 53) : nearest n = k ↔ n = k := by
  rcases Nat.lt_or_ge n.natAbs (2 ^ 53) with few | many
  · rw [nearest_eq_self_iff.mpr ⟨n.natAbs, 0, by simp, few⟩]
  · have large := nearestNat_of_large many
    have size : (nearest n).natAbs = nearestNat n.natAbs := by
      rw [nearest, Int.natAbs_mul, Int.natAbs_natCast, Int.natAbs_sign_of_ne_zero (by omega),
        one_mul]
    refine iff_of_false (fun same => ?_) fun same => ?_
    · rw [same] at size
      omega
    · rw [same] at many
      omega

/-- Integers from halfway between the two last ones with 53 bits on are too large for a word. -/
theorem nearest_lt_iff : nearest n < halfWords ↔ n < halfWords - 512 := by
  have bound := nearestNat_lt_iff (n := n.natAbs)
  rw [nearest, halfWords]
  rcases lt_trichotomy n 0 with negative | rfl | positive
  · rw [Int.sign_eq_neg_one_of_neg negative]
    omega
  · decide
  · rw [Int.sign_eq_one_of_pos positive]
    omega

/-- An integer that is a binary64 number has 53 bits but for zeros behind them. -/
theorem isShort_of_exact {x : Float} (finite : isFinite x = true) (whole : exact x = n) :
    IsShort n := by
  rw [exact_eq_worth] at whole
  rcases isFinite_iff.mp finite with ⟨s, unpacked⟩ | ⟨s, m, e, positive, unpacked, canonical⟩
  · rw [unpacked] at whole
    change (0 : Rat) = n at whole
    obtain rfl : n = 0 := by exact_mod_cast whole.symm
    exact ⟨0, 0, rfl, by decide⟩
  · rw [unpacked, worth_finite] at whole
    have size : (n.natAbs : Rat) = m * 2 ^ e := by
      rw [Nat.cast_natAbs, Int.cast_abs, ← whole, abs_mul, abs_of_nonneg (a := (m : Rat) * 2 ^ e)
        (by positivity)]
      split <;> simp
    rcases Int.le_total 0 e with nonneg | negative
    · obtain ⟨k, rfl⟩ := Int.eq_ofNat_of_zero_le nonneg
      exact ⟨m, k, by exact_mod_cast size, canonical.below⟩
    · obtain ⟨k, same⟩ := Int.eq_ofNat_of_zero_le (show 0 ≤ -e by omega)
      obtain rfl : e = -(k : Int) := by omega
      have product : n.natAbs * 2 ^ k = m := by
        rw [zpow_neg, zpow_natCast, ← div_eq_mul_inv, eq_div_iff (by positivity)] at size
        exact_mod_cast size
      refine ⟨n.natAbs, 0, by simp, ?_⟩
      exact (Nat.le_mul_of_pos_right _ (Nat.two_pow_pos k)).trans_lt (product ▸ canonical.below)

/-- An integral number is stored as its value, or as the least word if that does not fit. -/
theorem toInt64_of_exact {x : Float} (finite : isFinite x = true) (whole : exact x = n) :
    toInt64 x = if isWord n then n else -halfWords := by
  rw [toInt64, truncate_eq finite whole, finite, Bool.true_and]

/-- A binary64 number that is nearest to an integer is stored as that integer is. -/
theorem toInt64_eq {x : Float} (finite : isFinite x = true) (whole : exact x = nearest n) :
    toInt64 x = storedWord n :=
  toInt64_of_exact finite whole

/-- A number that is not finite is stored as the least word. -/
theorem toInt64_of_not_isFinite {x : Float} (infinite : isFinite x = false) :
    toInt64 x = -halfWords := by
  rw [toInt64, infinite, Bool.false_and]
  rfl

/-- The integers that words hold. -/
theorem isWord_iff : isWord n = true ↔ -halfWords ≤ n ∧ n < halfWords := by
  rw [isWord, Bool.and_eq_true, decide_eq_true_eq, decide_eq_true_eq]

/-- What is stored is what was given exactly if that has 53 bits but for zeros behind them and fits a
word. -/
theorem storedWord_eq_self_iff : storedWord n = n ↔ IsShort n ∧ isWord n = true := by
  rw [← nearest_eq_self_iff, storedWord]
  constructor
  · intro same
    split at same
    · rename_i fits
      exact ⟨same, same ▸ fits⟩
    · rename_i unfit
      -- The least word is the nearest one to itself.
      rw [← same] at unfit
      exact absurd (by decide) unfit
  · rintro ⟨same, fits⟩
    rw [same, if_pos fits]

/-- A number that is not negative is stored as the nearest one exactly if that fits, and then what is
stored is not negative. -/
theorem storedWord_nonneg_iff (nonneg : 0 ≤ n) : 0 ≤ storedWord n ↔ n < halfWords - 512 := by
  have least := nearest_nonneg_iff.mpr nonneg
  rw [← nearest_lt_iff, storedWord]
  split
  · rename_i fits
    exact iff_of_true least (isWord_iff.mp fits).2
  · rename_i unfit
    refine iff_of_false (by decide) fun less => unfit (isWord_iff.mpr ⟨?_, less⟩)
    exact le_trans (by decide) least

/-- A number that is not negative and fits is stored as the nearest one. -/
theorem storedWord_of_lt (nonneg : 0 ≤ n) (less : n < halfWords - 512) : storedWord n = nearest n := by
  have stored := (storedWord_nonneg_iff nonneg).mpr less
  unfold storedWord at stored ⊢
  split at stored
  · rename_i fits
    rw [if_pos fits]
  · exact absurd stored (by decide)

/-- An integer of a word has a nearest binary64 number. -/
theorem ofInt_of_isWord (word : isWord n = true) :
    isFinite (ofInt n) = true ∧ exact (ofInt n) = nearest n := by
  refine ofInt_spec ?_
  rw [isWord_iff, halfWords] at word
  rcases Nat.eq_zero_or_pos n.natAbs with none | some
  · rw [none]
    decide
  · have := (Nat.log2_lt (k := 64) some.ne').mpr (by omega)
    omega

/-- What is stored of a number that is integral or not finite has few bits and fits. -/
theorem isShort_toInt64 {x : Float} (whole : isInteger x = true ∨ isFinite x = false) :
    IsShort (toInt64 x) ∧ isWord (toInt64 x) = true := by
  have least : IsShort (-halfWords) ∧ isWord (-halfWords) = true :=
    ⟨⟨1, 63, by decide, by decide⟩, by decide⟩
  rcases whole with whole | infinite
  · obtain ⟨finite, n, same⟩ := isInteger_iff.mp whole
    rw [toInt64_of_exact finite same]
    split
    · rename_i fits
      exact ⟨isShort_of_exact finite same, fits⟩
    · exact least
  · rwa [toInt64_of_not_isFinite infinite]

/-- A word with few bits is a binary64 number, and stored again it is the same. -/
theorem restored {n : Int} (short : IsShort n) (word : isWord n = true) :
    isFinite (ofInt n) = true ∧ exact (ofInt n) = n ∧ toInt64 (ofInt n) = n := by
  obtain ⟨finite, value⟩ := ofInt_of_isWord word
  refine ⟨finite, ?_, (toInt64_eq finite value).trans (storedWord_eq_self_iff.mpr ⟨short, word⟩)⟩
  rw [value, nearest_eq_self_iff.mpr short]

end Multilevel.Number
