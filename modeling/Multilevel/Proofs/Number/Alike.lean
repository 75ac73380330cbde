import Mathlib
import Multilevel.Data.Column

/-!
# Numbers that count as the same

Two cells count as the same number if they are equal or both no number. They differ at most in the
sign of a zero then (`Number.alike_iff`), so sums, differences and products of such numbers
count as the same again. A number that compares equal to zero is one of the two zeros, and its exact
value is zero: the comparison is made on the unpacked numbers, and the exact value is read off the
bits.
-/
namespace Multilevel.Number

open Float.Model (Format UnpackedFloat)
open Float.Model.UnpackedFloat

section Zeros

/-- A number that equals zero unpacks to a zero with a sign. -/
theorem unpack_of_beq_zero {x : Float} (zero : (x == 0.0) = true) :
    ∃ sign, x.toModel.unpack = .zero sign := by
  have unpacked : (0.0 : Float).toModel.unpack = .zero .positive := rfl
  have compared : UnpackedFloat.beq x.toModel.unpack (.zero .positive) = true := unpacked ▸ zero
  cases made : x.toModel.unpack with
  | zero sign => exact ⟨sign, rfl⟩
  | notANumber => simp [made, UnpackedFloat.beq, UnpackedFloat.compare] at compared
  | infinity sign => cases sign <;> simp [made, UnpackedFloat.beq, UnpackedFloat.compare] at compared
  | finite sign => cases sign <;> simp [made, UnpackedFloat.beq, UnpackedFloat.compare] at compared

/-- A number that equals zero has neither exponent bits nor fraction bits. -/
theorem fields_of_beq_zero {x : Float} (zero : (x == 0.0) = true) :
    x.toBits.toNat / hiddenBit % 2048 = 0 ∧ x.toBits.toNat % hiddenBit = 0 := by
  obtain ⟨sign, unpacked⟩ := unpack_of_beq_zero zero
  change UnpackedFloat.unpack Format.binary64 x.toBits.toBitVec = .zero sign at unpacked
  unfold UnpackedFloat.unpack at unpacked
  dsimp only at unpacked
  split at unpacked
  · split at unpacked <;> cases unpacked
  · split at unpacked
    · rename_i exponent
      split at unpacked
      · rename_i fraction
        constructor
        · simpa [unpackExponent, BitVec.extractLsb, Nat.shiftRight_eq_div_pow, hiddenBit] using
            congrArg BitVec.toNat exponent
        · simpa [unpackMantissa, BitVec.extractLsb, hiddenBit] using congrArg BitVec.toNat fraction
      · cases unpacked
    · cases unpacked

/-- A number without a significand is zero. -/
theorem ofBinary_zero_num (exponent : Int) : (Ratio.ofBinary 0 exponent).num = 0 := by
  unfold Ratio.ofBinary
  split
  · exact Nat.zero_mul _
  · rfl

/-- The exact value of a number that equals zero is zero. -/
theorem exact_of_beq_zero {x : Float} (zero : (x == 0.0) = true) : exact x = 0 := by
  obtain ⟨exponent, fraction⟩ := fields_of_beq_zero zero
  have reading : Reading.ofFloat x =
      .finite (2048 ≤ x.toBits.toNat / hiddenBit) 0 (-1074) false := by
    simp [Reading.ofFloat, exponent, fraction]
  rw [exact, reading]
  dsimp only
  rw [ofBinary_zero_num, Nat.cast_zero, Rat.zero_mkRat, neg_zero, ite_self]

end Zeros

/-- Whether two unpacked numbers are the same but for the sign of a zero. -/
def UpToSign (u v : UnpackedFloat) : Prop := u = v ∨ (∃ s, u = .zero s) ∧ ∃ s, v = .zero s

/-- Whether two numbers count as the same. -/
def Alike (x y : Float) : Prop := Column.sameNumber x y = true

/-- A number is told by its unpacked form. -/
theorem eq_of_unpack_eq {x y : Float} (same : x.toModel.unpack = y.toModel.unpack) : x = y := by
  have bits := (unpack_inj_of_valid x.toModel.valid y.toModel.valid).mp same
  rw [← Float.toBits_inj]
  exact UInt64.toBitVec_inj.mp bits

/-- Numbers count as the same exactly if they are the same but for the sign of a zero. -/
theorem alike_iff {x y : Float} : Alike x y ↔ UpToSign x.toModel.unpack y.toModel.unpack := by
  have equal : (x == y) = true ↔ UnpackedFloat.beq x.toModel.unpack y.toModel.unpack = true :=
    Iff.rfl
  rw [Alike, Column.sameNumber, Bool.or_eq_true, Bool.and_eq_true, equal,
    beq_iff_ne_notANumber_and_eq]
  have none (z : Float) : z.isNaN = true ↔ z.toModel.unpack = .notANumber := isNaN_iff
  rw [none, none]
  constructor
  · rintro (⟨_, _, same | ⟨left, right⟩ | ⟨left, right⟩⟩ | ⟨left, right⟩)
    · exact .inl same
    · exact .inr ⟨⟨_, left⟩, _, right⟩
    · exact .inr ⟨⟨_, left⟩, _, right⟩
    · exact .inl (left.trans right.symm)
  · rintro (same | ⟨⟨s, left⟩, t, right⟩)
    · by_cases nothing : x.toModel.unpack = .notANumber
      · exact .inr ⟨nothing, same ▸ nothing⟩
      · exact .inl ⟨nothing, same ▸ nothing, .inl same⟩
    · rw [left, right]
      cases s <;> cases t <;> simp

/-- A number counts as itself. -/
theorem Alike.refl (x : Float) : Alike x x := alike_iff.mpr (.inl rfl)

/-- Which of two numbers is named first does not matter. -/
theorem Alike.symm {x y : Float} (same : Alike x y) : Alike y x := by
  rcases alike_iff.mp same with equal | ⟨left, right⟩
  · exact alike_iff.mpr (.inl equal.symm)
  · exact alike_iff.mpr (.inr ⟨right, left⟩)

/-- Equal numbers count as the same. -/
theorem alike_of_beq {x y : Float} (equal : (x == y) = true) : Alike x y := by
  rw [Alike, Column.sameNumber, equal, Bool.true_or]

/-- So do the numbers of lists that are equal place by place. -/
theorem forall₂_alike_of_zip {xs ys : List Float} (length : xs.length = ys.length)
    (equal : ((xs.zip ys).all fun (u, v) => u == v) = true) : List.Forall₂ Alike xs ys := by
  rw [List.forall₂_iff_zip]
  refine ⟨length, fun {u v} mem => ?_⟩
  have same : (u == v) = true := List.all_eq_true.mp equal (u, v) mem
  exact alike_of_beq same

/-- Numbers that are packed from the same but for the sign of a zero count as the same. -/
theorem alike_pack {u v : UnpackedFloat} (same : UpToSign u v) :
    Alike ⟨.pack u⟩ ⟨.pack v⟩ := by
  have zero (s : UnpackedFloat.Sign) : (Float.Model.pack (.zero s)).unpack = .zero s := by
    cases s <;> rfl
  rcases same with rfl | ⟨⟨s, rfl⟩, t, rfl⟩
  · exact .refl _
  · exact alike_iff.mpr (.inr ⟨⟨s, zero s⟩, t, zero t⟩)

/-- Whether an operation heeds no sign of a zero, but for the sign of a zero in its result. -/
structure IgnoresSign (f : UnpackedFloat → UnpackedFloat → UnpackedFloat) : Prop where
  /-- Zeros give a zero. -/
  zeros : ∀ s t, ∃ r, f (.zero s) (.zero t) = .zero r
  /-- A zero on the left. -/
  left : ∀ s t v, (∀ r, v ≠ .zero r) → UpToSign (f (.zero s) v) (f (.zero t) v)
  /-- A zero on the right. -/
  right : ∀ s t u, (∀ r, u ≠ .zero r) → UpToSign (f u (.zero s)) (f u (.zero t))

/-- Such an operation keeps numbers that count as the same. -/
theorem IgnoresSign.alike {f : UnpackedFloat → UnpackedFloat → UnpackedFloat}
    (ignores : IgnoresSign f) {x x' y y' : Float} (first : Alike x x') (second : Alike y y') :
    Alike ⟨.pack (f x.toModel.unpack y.toModel.unpack)⟩
      ⟨.pack (f x'.toModel.unpack y'.toModel.unpack)⟩ := by
  rw [alike_iff] at first second
  refine alike_pack ?_
  generalize x.toModel.unpack = u at first ⊢
  generalize x'.toModel.unpack = u' at first ⊢
  generalize y.toModel.unpack = v at second ⊢
  generalize y'.toModel.unpack = v' at second ⊢
  have both (s t s' t' : UnpackedFloat.Sign) :
      UpToSign (f (.zero s) (.zero t)) (f (.zero s') (.zero t')) :=
    .inr ⟨ignores.zeros s t, ignores.zeros s' t'⟩
  rcases first with rfl | ⟨⟨s, rfl⟩, t, rfl⟩ <;> rcases second with rfl | ⟨⟨s', rfl⟩, t', rfl⟩
  · exact .inl rfl
  · by_cases zero : ∃ r, u = .zero r
    · obtain ⟨r, rfl⟩ := zero
      exact both ..
    · exact ignores.right _ _ _ (not_exists.mp zero)
  · by_cases zero : ∃ r, v = .zero r
    · obtain ⟨r, rfl⟩ := zero
      exact both ..
    · exact ignores.left _ _ _ (not_exists.mp zero)
  · exact both ..

/-- Products of numbers that count as the same count as the same. -/
theorem Alike.mul {x x' y y' : Float} (left : Alike x x') (right : Alike y y') :
    Alike (x * y) (x' * y') := by
  have ignores : IgnoresSign (UnpackedFloat.mul Format.binary64) := by
    refine ⟨fun s t => ⟨_, rfl⟩, fun s t v other => ?_, fun s t u other => ?_⟩
    · cases v <;> simp [UpToSign, UnpackedFloat.mul]
    · cases u <;> simp [UpToSign, UnpackedFloat.mul]
  exact ignores.alike left right

/-- Sums of numbers that count as the same count as the same. -/
theorem Alike.add {x x' y y' : Float} (left : Alike x x') (right : Alike y y') :
    Alike (x + y) (x' + y') := by
  have ignores : IgnoresSign (UnpackedFloat.add Format.binary64) := by
    refine ⟨fun s t => ?_, fun s t v other => ?_, fun s t u other => ?_⟩
    · cases s <;> cases t <;> exact ⟨_, rfl⟩
    · cases v <;> first | exact absurd rfl (other _) | exact .inl rfl
    · cases u <;> first | exact absurd rfl (other _) | exact .inl rfl
  exact ignores.alike left right

/-- Differences of numbers that count as the same count as the same. -/
theorem Alike.sub {x x' y y' : Float} (left : Alike x x') (right : Alike y y') :
    Alike (x - y) (x' - y') := by
  have ignores : IgnoresSign (UnpackedFloat.sub Format.binary64) := by
    refine ⟨fun s t => ?_, fun s t v other => ?_, fun s t u other => ?_⟩
    · cases s <;> cases t <;> exact ⟨_, rfl⟩
    · cases v <;> first | exact absurd rfl (other _) | exact .inl rfl
    · cases u <;> first | exact absurd rfl (other _) | exact .inl rfl
  exact ignores.alike left right

/-- The sign of a zero does not matter to a comparison. -/
theorem UpToSign.compare {u v : UnpackedFloat} (same : UpToSign u v) (w : UnpackedFloat) :
    UnpackedFloat.compare u w = UnpackedFloat.compare v w := by
  rcases same with rfl | ⟨⟨s, rfl⟩, t, rfl⟩
  · rfl
  · cases w with
    | finite sign => cases sign <;> rfl
    | infinity sign => cases sign <;> rfl
    | _ => rfl

/-- Numbers that count as the same equal the same numbers. -/
theorem Alike.beq {x y : Float} (same : Alike x y) (z : Float) : (x == z) = (y == z) :=
  congrArg (· == some Ordering.eq) ((alike_iff.mp same).compare z.toModel.unpack)

/-- Numbers that count as the same are the same or zeros both. -/
theorem Alike.eq_or_zero {x y : Float} (same : Alike x y) :
    x = y ∨ (x == 0.0) = true ∧ (y == 0.0) = true := by
  have zero {z : Float} {s : Sign} (unpacked : z.toModel.unpack = .zero s) : (z == 0.0) = true := by
    show UnpackedFloat.beq z.toModel.unpack (.zero .positive) = true
    rw [unpacked]
    cases s <;> rfl
  rcases alike_iff.mp same with equal | ⟨⟨_, left⟩, _, right⟩
  · exact .inl (eq_of_unpack_eq equal)
  · exact .inr ⟨zero left, zero right⟩

/-- A number is at most another one if their comparison says so. -/
theorem le_iff {x y : Float} : x ≤ y ↔
    (UnpackedFloat.compare x.toModel.unpack y.toModel.unpack).any Ordering.isLE = true :=
  decide_eq_true_iff

/-- Numbers that count as the same are at most the same numbers. -/
theorem Alike.le_iff {x y : Float} (same : Alike x y) (z : Float) : x ≤ z ↔ y ≤ z := by
  rw [Number.le_iff, Number.le_iff, (alike_iff.mp same).compare]

/-- Numbers that count as the same and are not at most zero are the same. -/
theorem Alike.eq_of_not_le {x y : Float} (same : Alike x y) (above : ¬x ≤ 0.0) : x = y := by
  rcases alike_iff.mp same with equal | ⟨⟨s, zero⟩, _⟩
  · exact eq_of_unpack_eq equal
  · refine absurd ?_ above
    rw [Number.le_iff, zero]
    rfl

/-- What is packed from a number is a number. -/
theorem unpack_pack_ne {u : UnpackedFloat} (number : u ≠ .notANumber) :
    (Float.Model.pack u).unpack ≠ .notANumber := by
  intro nothing
  have bits : UnpackedFloat.pack Format.binary64 u = packedNaN Format.binary64 :=
    (unpack_eq_notANumber_iff_of_valid (Float.Model.pack u).valid).mp nothing
  have exponent := congrArg unpackExponent bits
  have last : unpackExponent (packedNaN Format.binary64) = -1#_ := by decide
  cases u with
  | notANumber => exact number rfl
  | infinity s => cases s <;> revert bits <;> decide
  | zero s => cases s <;> revert bits <;> decide
  | finite s m e pos =>
    unfold UnpackedFloat.pack at exponent bits
    dsimp only at exponent bits
    split at exponent
    · rename_i large
      rw [if_pos large] at bits
      cases s <;> revert bits <;> decide
    · rename_i small
      split at exponent
      · rw [unpackExponent_packComponents, last] at exponent
        have value := congrArg BitVec.toNat exponent
        have ones : (-1#(Format.binary64.exponentBits)).toNat = 2047 := by decide
        have words : 2 ^ Format.binary64.exponentBits = 2048 := by decide
        rw [ones, BitVec.toNat_ofNat, words] at value
        rw [words] at small
        omega
      · rw [unpackExponent_packComponents, last] at exponent
        revert exponent
        decide

/-- Rounding gives a number. -/
theorem roundWithAccuracy_ne (spec : Format) (sign : Sign) (m : Nat) (e : Int)
    (accuracy : Accuracy) : roundWithAccuracy spec sign m e accuracy ≠ .notANumber := by
  unfold roundWithAccuracy
  dsimp only
  split <;> exact nofun

/-- An integer in units of a power of two is a number. -/
theorem normalize_ne (spec : Format) (m e : Int) (sign : Sign) :
    UnpackedFloat.normalize spec m e sign ≠ .notANumber := by
  unfold UnpackedFloat.normalize
  split
  · exact roundWithAccuracy_ne _ _ _ _ _
  · exact nofun
  · exact roundWithAccuracy_ne _ _ _ _ _

/-- The product of a number with a finite one is a number. -/
theorem mul_finite_ne (spec : Format) {u : UnpackedFloat} (number : u ≠ .notANumber) (sign : Sign)
    {m : Nat} (e : Int) (pos : 0 < m) :
    UnpackedFloat.mul spec u (.finite sign m e pos) ≠ .notANumber := by
  cases u with
  | notANumber => exact absurd rfl number
  | finite => exact roundWithAccuracy_ne _ _ _ _ _
  | _ => exact nofun

/-- The number nearest to a natural one is a number. -/
theorem unpack_ofNat_ne (n : Nat) : (Float.ofNat n).toModel.unpack ≠ .notANumber := by
  obtain ⟨sign, m, e, pos, unit⟩ : ∃ sign m e, ∃ pos : 0 < m,
      (Float.exactlyRepresentablePowersOfTen[0]).toModel.unpack = .finite sign m e pos :=
    ⟨_, _, _, _, rfl⟩
  show (Float.ofScientific n false 0).toModel.unpack ≠ _
  unfold Float.ofScientific
  split
  · -- A small number is one word, times one.
    refine unpack_pack_ne (u := UnpackedFloat.mul _ _ _) ?_
    erw [unit]
    exact mul_finite_ne _ (unpack_pack_ne (u := UnpackedFloat.normalize _ _ _ _)
      (normalize_ne _ _ _ _)) _ _ _
  · refine unpack_pack_ne ?_
    unfold UnpackedFloat.ofScientific
    simp only [Bool.false_eq_true, if_false]
    split
    · exact nofun
    · split
      · exact nofun
      · split
        · exact nofun
        · split
          · refine mul_finite_ne _ ?_ _ _ _
            exact nofun
          · rename_i negative
            exact absurd (le_refl _) negative

/-- The number nearest to an integer is a number. -/
theorem isNaN_ofInt (n : Int) : (ofInt n).isNaN = false := by
  have number : (ofInt n).toModel.unpack ≠ .notANumber := by
    cases n with
    | ofNat n => exact unpack_ofNat_ne n
    | negSucc n =>
      refine unpack_pack_ne (u := UnpackedFloat.neg _) ?_
      have number := unpack_ofNat_ne n.succ
      cases made : (Float.ofNat n.succ).toModel.unpack with
      | notANumber => exact absurd made number
      | _ => exact nofun
  exact Bool.eq_false_iff.mpr fun nothing => number (isNaN_iff.mp nothing)

/-- A number equals itself unless it is none. -/
theorem beq_self (x : Float) : (x == x) = !x.isNaN := by
  cases none : x.isNaN with
  | true =>
    rw [Float.isNaN_eq_decide_eq_nan, decide_eq_true_eq] at none
    rw [Float.beq_self_eq_false_iff.mpr none]
    rfl
  | false =>
    rw [Float.isNaN_eq_decide_eq_nan, decide_eq_false_iff_not] at none
    rw [Float.beq_self_iff.mpr none]
    rfl

/-- Numbers that count as the same are equal unless they are none. -/
theorem Alike.beq_eq {x y : Float} (same : Alike x y) : (x == y) = !y.isNaN := by
  rw [same.beq, beq_self]

/-- A finite number is a number. -/
theorem isNaN_of_isFinite {x : Float} (finite : isFinite x = true) : x.isNaN = false := by
  rw [Float.isNaN_eq_decide_eq_nan, decide_eq_false_iff_not]
  rintro rfl
  exact absurd finite (by decide +kernel)

/-- Bits that say nothing are those of no number. -/
theorem isNaN_of_reading {x : Float} (nothing : Reading.ofFloat x = .nan) : x.isNaN = true := by
  have fields : x.toBits.toNat / hiddenBit % 2048 = 2047 ∧ x.toBits.toNat % hiddenBit ≠ 0 := by
    unfold Reading.ofFloat at nothing
    dsimp only at nothing
    split at nothing
    · rename_i field
      split at nothing
      · cases nothing
      · rename_i fraction
        exact ⟨field, fraction⟩
    · split at nothing <;> cases nothing
  obtain ⟨field, fraction⟩ := fields
  have nan : x.isNaN = true ↔ x.toModel.unpack = .notANumber := isNaN_iff
  rw [nan]
  change UnpackedFloat.unpack Format.binary64 x.toBits.toBitVec = .notANumber
  unfold UnpackedFloat.unpack
  dsimp only
  split
  · split
    · rename_i zero
      refine absurd ?_ fraction
      simpa [unpackMantissa, BitVec.extractLsb, hiddenBit] using congrArg BitVec.toNat zero
    · rfl
  · rename_i other
    refine absurd (BitVec.eq_of_toNat_eq ?_) other
    simpa [unpackExponent, BitVec.extractLsb, Nat.shiftRight_eq_div_pow, hiddenBit] using field

/-- Numbers that count as the same are none together. -/
theorem Alike.isNaN {x y : Float} (same : Alike x y) : x.isNaN = y.isNaN := by
  have none (z : Float) : z.isNaN = true ↔ z.toModel.unpack = .notANumber := isNaN_iff
  rw [Bool.eq_iff_iff, none, none]
  rcases alike_iff.mp same with equal | ⟨⟨s, left⟩, t, right⟩
  · rw [equal]
  · rw [left, right]
    exact iff_of_false nofun nofun

/-- Which of two numbers is compared with the other one does not matter. -/
theorem beq_symm {x y : Float} (equal : (x == y) = true) : (y == x) = true := by
  have alike := alike_of_beq equal
  rw [alike.beq_eq] at equal
  rw [alike.symm.beq_eq, alike.isNaN, equal]

end Multilevel.Number
