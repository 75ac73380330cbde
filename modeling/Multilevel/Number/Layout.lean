import Multilevel.Number.Decimal

/-!
# Written numbers

How a decimal is laid out: with a point in its place, or as digits with a power of ten. A
`Layout` fixes the powers of ten that are written with a point and whether an integer keeps a
zero after the point; the library writes all floating-point numbers in one of the layouts below.
-/
namespace Multilevel.Number

/-- The decisions of a written form. -/
structure Layout where
  /-- From this power of ten of the first digit on, a power is written. -/
  highest : Int
  /-- Whether an integer is written with a point and a zero. -/
  pointZero : Bool

/-- Displayed numbers: a power is written from `10 ^ 16` on and below `10 ^ (-4)`, and an integer
keeps its point. -/
def displayed : Layout := ⟨16, true⟩

/-- Labels: six digits, a power from `10 ^ 6` on, and no point after an integer. -/
def labelled : Layout := ⟨6, false⟩

/-- The sign and the digits of a power of ten: at least two digits. -/
def powerText (power : Int) : String :=
  let digits := toString power.natAbs
  (if power < 0 then "e-" else "e+") ++ (if digits.length < 2 then "0" else "") ++ digits

/-- A positive decimal in a layout. -/
def Layout.decimal (layout : Layout) (d : Decimal) : String :=
  let digits := (toString d.digits).toList
  let count : Int := digits.length
  let first := d.exponent + count - 1
  if first < -4 || layout.highest ≤ first then
    let mantissa := match digits with
      | [] => []
      | [c] => [c]
      | c :: rest => c :: '.' :: rest
    String.ofList mantissa ++ powerText first
  else if first < 0 then
    "0." ++ String.ofList (List.replicate (-first - 1).toNat '0' ++ digits)
  else if 0 ≤ d.exponent then
    String.ofList (digits ++ List.replicate d.exponent.toNat '0') ++
      (if layout.pointZero then ".0" else "")
  else
    let (whole, fraction) := digits.splitAt (first + 1).toNat
    String.ofList (whole ++ '.' :: fraction)

/-- Zero in a layout. -/
def Layout.zero (layout : Layout) : String := if layout.pointZero then "0.0" else "0"

/-- The sign in front of a written number. -/
def signText (negative : Bool) : String := if negative then "-" else ""

/-- A number in a layout, by a rule that gives the decimal of a positive number. -/
def Layout.write (layout : Layout) (decimal : Nat → Int → Bool → Decimal) (x : Float) : String :=
  match Reading.ofFloat x with
  | .nan => "nan"
  | .infinite negative => signText negative ++ "inf"
  | .finite negative significand exponent lowest =>
    signText negative ++
      if significand = 0 then layout.zero
      else layout.decimal (decimal significand exponent lowest)

/-- The displayed form of a number: the fewest digits that read back as it. -/
def display (x : Float) : String := displayed.write shortest x

/-- The form of a number in a label: six significant digits. -/
def label (x : Float) : String :=
  labelled.write (fun significand exponent _ =>
    significant 6 (Ratio.ofBinary significand exponent)) x

/-- A number with a fixed count of digits after the point. -/
def fixed (count : Nat) (x : Float) : String :=
  match Reading.ofFloat x with
  | .nan => "nan"
  | .infinite negative => signText negative ++ "inf"
  | .finite negative significand exponent _ =>
    let units := places count (Ratio.ofBinary significand exponent)
    let fraction := toString (units % Nat.pow 10 count)
    signText negative ++ toString (units / Nat.pow 10 count) ++ "." ++
      "".pushn '0' (count - fraction.length) ++ fraction

/-- The most digits of an integer that are read and written. -/
def longestInteger : Nat := 4300

/-- Whether an integer has no more digits than are written. -/
def isWritable (n : Int) : Bool := n.natAbs < Nat.pow 10 longestInteger

/-- The number that a decimal stands for, correctly rounded. -/
def Decimal.toFloat (negative : Bool) (d : Decimal) : Float :=
  let size := d.exponent + digitCount d.digits
  let magnitude :=
    if d.digits = 0 || size < -400 then 0.0
    else if 400 < size then 1.0 / 0.0
    else if 0 ≤ d.exponent then Float.ofScientific d.digits false d.exponent.toNat
    else Float.ofScientific d.digits true (-d.exponent).toNat
  if negative then -magnitude else magnitude

/-- A number rounded to ten significant digits; a negative zero loses its sign. -/
def rounded (x : Float) : Float :=
  match Reading.ofFloat x with
  | .finite negative significand exponent _ =>
    if significand = 0 then 0.0
    else (significant 10 (Ratio.ofBinary significand exponent)).toFloat negative
  | _ => x

end Multilevel.Number
