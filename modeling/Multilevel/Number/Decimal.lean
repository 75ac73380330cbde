import Multilevel.Number.Binary64

/-!
# Decimal forms of binary numbers

A decimal is an integer times a power of ten. `shortest` is the decimal with the fewest digits
that reads back as a given binary number, `significant` the nearest one with a given number of
digits, `places` the nearest one with a given number of digits after the point. All three work
in exact integer arithmetic.
-/
namespace Multilevel.Number

/-- The number `digits * 10 ^ exponent`. -/
structure Decimal where
  /-- All digits, read as one integer. -/
  digits : Nat
  /-- The power of ten of the last digit. -/
  exponent : Int
  deriving Repr, DecidableEq

/-- How many decimal digits a natural number has; zero has one. -/
def digitCount (n : Nat) : Nat := (Nat.toDigits 10 n).length

/-- The power of ten of the first digit of a positive rational number. -/
def Ratio.magnitude (r : Ratio) : Int :=
  let guess : Int := digitCount r.num - digitCount r.den
  let scaled := r.inUnits guess
  if scaled.den ≤ scaled.num then guess else guess - 1

/-- A decimal without the zeros at its end. -/
def Decimal.trim (d : Decimal) : Decimal :=
  go d.digits d
where
  /-- Drops one zero at a time, at most as often as the number has digits. -/
  go : Nat → Decimal → Decimal
    | 0, d => d
    | fuel + 1, d =>
      if d.digits ≠ 0 ∧ d.digits % 10 = 0 then go fuel ⟨d.digits / 10, d.exponent + 1⟩ else d

/-- The interval of rational numbers that round to `significand * 2 ^ exponent`. Both ends are
counted in the same units of the denominator. -/
structure Interval where
  /-- Lower end. -/
  low : Nat
  /-- The number itself. -/
  middle : Nat
  /-- Upper end. -/
  high : Nat
  /-- Denominator of the three. -/
  den : Nat
  /-- Whether the ends belong to the interval. -/
  closed : Bool

/-- The interval around a binary number: half a step to each side, a quarter of a step below the
least number of a binade. The ends round to the number when its significand is even. -/
def Interval.around (significand : Nat) (exponent : Int) (lowest : Bool) : Interval :=
  let unit := Ratio.ofBinary 1 (exponent - 2)
  let low := if lowest then 4 * significand - 1 else 4 * significand - 2
  ⟨low * unit.num, 4 * significand * unit.num, (4 * significand + 2) * unit.num, unit.den,
    significand % 2 == 0⟩

/-- Whether a multiple of a decimal unit lies in the interval. -/
def Interval.holds (i : Interval) (unit : Ratio) (count : Nat) : Bool :=
  let value := count * unit.num * i.den
  let low := i.low * unit.den
  let high := i.high * unit.den
  if i.closed then low ≤ value && value ≤ high else low < value && value < high

/-- The decimal of a given last place in the interval, nearest to its middle; an even one in case
of a tie. -/
def Interval.pick (i : Interval) (power : Int) : Option Decimal :=
  let unit := (Ratio.mk 1 1).inUnits (-power)
  let scaled := (Ratio.mk i.middle i.den).inUnits power
  let below := scaled.num / scaled.den
  let nearest := scaled.round
  let other := if nearest = below then below + 1 else below
  if i.holds unit nearest then some ⟨nearest, power⟩
  else if i.holds unit other then some ⟨other, power⟩
  else none

/-- The shortest decimal of a positive binary number: of the first grid of decimals that meets the
interval around it, the nearest one. Seventeen digits always suffice. -/
def shortest (significand : Nat) (exponent : Int) (lowest : Bool) : Decimal :=
  let i := Interval.around significand exponent lowest
  let top := (Ratio.mk i.middle i.den).magnitude
  match (List.range 17).findSome? fun (k : Nat) => i.pick (top - k) with
  | some d => d.trim
  | none => ⟨0, 0⟩

/-- The nearest decimal with at most the given number of digits, ties to even. -/
def significant (count : Nat) (r : Ratio) : Decimal :=
  let power := r.magnitude + 1 - count
  (Decimal.mk (r.inUnits power).round power).trim

/-- The nearest multiple of `10 ^ (-count)`, ties to even. -/
def places (count : Nat) (r : Ratio) : Nat := (r.inUnits (-count)).round

end Multilevel.Number
