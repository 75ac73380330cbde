/-!
# Binary floating-point numbers

A binary64 number is read off its bits: nothing, an infinity, or a sign with a significand and
a power of two. Every exact rule on such numbers in this library (decimal forms, integrality,
conversion to integers) is stated on this reading, in integer arithmetic.
-/
namespace Multilevel.Number

/-- What the bits of a binary64 number say. A finite number is `± significand * 2 ^ exponent`;
`lowest` tells that the significand is the least of its binade, below which the numbers lie
twice as close. -/
inductive Reading where
  | nan
  | infinite (negative : Bool)
  | finite (negative : Bool) (significand : Nat) (exponent : Int) (lowest : Bool)
  deriving Repr, DecidableEq

/-- The value of the lowest bit above the fraction of a number. -/
def hiddenBit : Nat := 4503599627370496

/-- The reading of a number. -/
def Reading.ofFloat (x : Float) : Reading :=
  let bits := x.toBits.toNat
  let field := bits / hiddenBit % 2048
  let negative := 2048 ≤ bits / hiddenBit
  let fraction := bits % hiddenBit
  if field = 2047 then (if fraction = 0 then .infinite negative else .nan)
  else if field = 0 then .finite negative fraction (-1074) false
  else .finite negative (hiddenBit + fraction) ((field : Int) - 1075) (fraction == 0 && 1 < field)

/-- A positive rational number. -/
structure Ratio where
  /-- Numerator. -/
  num : Nat
  /-- Denominator. -/
  den : Nat
  deriving Repr, DecidableEq

/-- The rational number `significand * 2 ^ exponent`. -/
def Ratio.ofBinary (significand : Nat) (exponent : Int) : Ratio :=
  if 0 ≤ exponent then ⟨significand * Nat.pow 2 exponent.toNat, 1⟩
  else ⟨significand, Nat.pow 2 (-exponent).toNat⟩

/-- A rational number counted in units of `10 ^ power`. -/
def Ratio.inUnits (r : Ratio) (power : Int) : Ratio :=
  if 0 ≤ power then ⟨r.num, r.den * Nat.pow 10 power.toNat⟩
  else ⟨r.num * Nat.pow 10 (-power).toNat, r.den⟩

/-- The integer nearest to a rational number; of two equally near ones, the even one. -/
def Ratio.round (r : Ratio) : Nat :=
  let floor := r.num / r.den
  let rest := 2 * (r.num % r.den)
  if rest < r.den || (rest == r.den && floor % 2 == 0) then floor else floor + 1

/-- Rounding is off by at most one half. -/
theorem Ratio.round_near (r : Ratio) (positive : 0 < r.den) :
    2 * (r.round * r.den) ≤ 2 * r.num + r.den ∧ 2 * r.num ≤ 2 * (r.round * r.den) + r.den := by
  have split := Nat.div_add_mod r.num r.den
  have small := Nat.mod_lt r.num positive
  have product : (r.num / r.den + 1) * r.den = r.den * (r.num / r.den) + r.den := by
    rw [Nat.add_mul, Nat.mul_comm, Nat.one_mul]
  have swap : r.num / r.den * r.den = r.den * (r.num / r.den) := Nat.mul_comm _ _
  simp only [Ratio.round]
  split
  · rename_i below
    simp only [Bool.or_eq_true, decide_eq_true_eq, Bool.and_eq_true, beq_iff_eq] at below
    rw [swap]
    omega
  · rename_i above
    simp only [Bool.or_eq_true, decide_eq_true_eq, Bool.and_eq_true, beq_iff_eq, not_or] at above
    rw [product]
    omega

/-- Whether a number is neither infinite nor no number at all. -/
def isFinite (x : Float) : Bool :=
  match Reading.ofFloat x with
  | .finite .. => true
  | _ => false

/-- The rational number that a finite number is; zero for the others. -/
def exact (x : Float) : Rat :=
  match Reading.ofFloat x with
  | .finite negative significand exponent _ =>
    let r := Ratio.ofBinary significand exponent
    let magnitude := mkRat r.num r.den
    if negative then -magnitude else magnitude
  | _ => 0

/-- The integer part of a finite number, rounded toward zero; zero for the others. -/
def truncate (x : Float) : Int :=
  match Reading.ofFloat x with
  | .finite negative significand exponent _ =>
    let r := Ratio.ofBinary significand exponent
    let magnitude : Int := r.num / r.den
    if negative then -magnitude else magnitude
  | _ => 0

/-- Whether a finite number is an integer. -/
def isInteger (x : Float) : Bool :=
  match Reading.ofFloat x with
  | .finite _ significand exponent _ =>
    let r := Ratio.ofBinary significand exponent
    r.num % r.den == 0
  | _ => false

/-- The binary64 number nearest to an integer, ties to even. -/
def ofInt (n : Int) : Float := Float.ofInt n

/-- Half the count of the 64-bit words. -/
def halfWords : Int := 9223372036854775808

/-- Whether an integer is one that a 64-bit word holds. -/
def isWord (n : Int) : Bool := -halfWords ≤ n && n < halfWords

/-- Whether an integer is one that a 64-bit word holds only without a sign. -/
def isHighWord (n : Int) : Bool := halfWords ≤ n && n < 2 * halfWords

/-- Whether a floating-point number is exactly an integer. -/
def isExactly (x : Float) (n : Int) : Bool := isInteger x && truncate x == n

/-- Whether an integer has a nearest floating-point number that is finite. -/
def isRepresentable (n : Int) : Bool := isFinite (ofInt n)

/-- The value of a number in a 64-bit word. A number outside of its range, or none at all, is
stored as the least word. -/
def toInt64 (x : Float) : Int :=
  let n := truncate x
  if isFinite x && isWord n then n else -halfWords

end Multilevel.Number
