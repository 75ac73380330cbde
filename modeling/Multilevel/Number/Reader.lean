import Multilevel.Number.Layout
import Multilevel.Text.Blank
import Multilevel.Text.Digit

/-!
# Reading numbers

The numbers that a text spells. Blanks around a number are ignored, the four separators U+001C to
U+001F apart, its digits may be of any script, and a single underscore may stand between two
digits. `int?` reads an integer, `float?` a floating-point number: digits with an optional point
and an optional power of ten, or a word for infinity or for no number at all, in letters of any
case.
-/
namespace Multilevel.Number

/-- Whether a character may stand around a number: a blank that is no separator of records. -/
def isMargin (c : Char) : Bool := Text.isBlank c && !(28 ≤ c.toNat && c.toNat ≤ 31)

/-- The characters without the margins at both ends. -/
def trim (chars : List Char) : List Char :=
  ((chars.dropWhile isMargin).reverse.dropWhile isMargin).reverse

/-- Replaces the digits of all scripts by those of the first 128 characters. -/
def plainDigits (chars : List Char) : List Char :=
  chars.map fun c => match Text.digitValue? c with
    | some value => Nat.digitChar value
    | none => c

/-- Splits an optional sign off; true stands for a minus. -/
def readSign : List Char → Bool × List Char
  | '+' :: rest => (false, rest)
  | '-' :: rest => (true, rest)
  | chars => (false, chars)

/-- Reads digits and the single underscores between them, returning their value, their count and
the characters after them. -/
def readDigits : List Char → Nat → Nat → Nat × Nat × List Char
  | [], value, count => (value, count, [])
  | c :: rest, value, count =>
    if c.isDigit then readDigits rest (10 * value + (c.toNat - 48)) (count + 1)
    else if c == '_' && count != 0 then
      match rest with
      | d :: more =>
        if d.isDigit then readDigits more (10 * value + (d.toNat - 48)) (count + 1)
        else (value, count, c :: rest)
      | [] => (value, count, c :: rest)
    else (value, count, c :: rest)

/-- The integer that characters without margins around them spell. -/
def intOfChars? (chars : List Char) : Option Int :=
  let (negative, rest) := readSign chars
  match readDigits rest 0 0 with
  | (value, count, []) =>
    if count = 0 || longestInteger < count then none
    else some (if negative then -(value : Int) else value)
  | _ => none

/-- The integer that a text spells. -/
def int? (text : String) : Option Int := intOfChars? (plainDigits (trim text.toList))

/-- Reads an optional power of ten; without one the power is zero. -/
def readPower : List Char → Option Int
  | [] => some 0
  | c :: rest =>
    if c == 'e' || c == 'E' then
      let (negative, digits) := readSign rest
      match readDigits digits 0 0 with
      | (value, count, []) =>
        if count = 0 then none else some (if negative then -(value : Int) else value)
      | _ => none
    else none

/-- The magnitude that characters after a sign spell. -/
def magnitudeOfChars? (chars : List Char) : Option Decimal := do
  let (whole, wholeCount, rest) := readDigits chars 0 0
  match rest with
  | '.' :: after =>
    let (digits, fractionCount, last) :=
      match after with
      | '_' :: _ => (0, 0, after)
      | _ => readDigits after 0 0
    if wholeCount + fractionCount = 0 then none
    else
      let power ← readPower last
      some ⟨whole * Nat.pow 10 fractionCount + digits, power - fractionCount⟩
  | _ =>
    if wholeCount = 0 then none
    else
      let power ← readPower rest
      some ⟨whole, power⟩

/-- The floating-point number that characters without margins around them spell. -/
def floatOfChars? (chars : List Char) : Option Float :=
  let (negative, rest) := readSign chars
  let word := String.ofList (rest.map Char.toLower)
  if word == "inf" || word == "infinity" then
    some (if negative then -1.0 / 0.0 else 1.0 / 0.0)
  else if word == "nan" then some (0.0 / 0.0)
  else (magnitudeOfChars? rest).map (Decimal.toFloat negative)

/-- The floating-point number that a text spells. -/
def float? (text : String) : Option Float :=
  floatOfChars? (plainDigits (trim text.toList))

end Multilevel.Number
