import Multilevel.Text.Split

/-!
# Decimal digits

A number may be written in the decimal digits of any script. The digits of a script are ten
consecutive characters, from its zero to its nine.
-/
namespace Multilevel.Text

/-- The zeros of the scripts, ascending, as of version 14 of the character database. -/
def zeroDigits : List Nat := [
    48, 1632, 1776, 1984, 2406, 2534, 2662, 2790, 2918, 3046, 3174, 3302,
    3430, 3558, 3664, 3792, 3872, 4160, 4240, 6112, 6160, 6470, 6608,
    6784, 6800, 6992, 7088, 7232, 7248, 42528, 43216, 43264, 43472, 43504,
    43600, 44016, 65296, 66720, 68912, 69734, 69872, 69942, 70096, 70384,
    70736, 70864, 71248, 71360, 71472, 71904, 72016, 72784, 73040, 73120,
    92768, 92864, 93008, 120782, 120792, 120802, 120812, 120822, 123200,
    123632, 125264, 130032]

/-- The value of a decimal digit of any script, and nothing for any other character. -/
def digitValue? (c : Char) : Option Nat :=
  (zeroDigits.find? fun first => first ≤ c.toNat && c.toNat < first + 10).map (c.toNat - ·)

/-- A digit has a value below ten. -/
theorem digitValue?_lt {c : Char} {value : Nat} (digit : digitValue? c = some value) :
    value < 10 := by
  unfold digitValue? at digit
  obtain ⟨first, found, rfl⟩ := Option.map_eq_some_iff.mp digit
  have := List.find?_some found
  simp only [Bool.and_eq_true, decide_eq_true_eq] at this
  omega

/-- The natural number that digits of the first 128 characters spell. -/
def natural? (text : String) : Option Nat :=
  let digits := text.toList
  if digits.isEmpty || !digits.all Char.isDigit then none
  else some (Nat.ofDigitChars 10 digits 0)

/-- The integer that digits spell, with a minus in front of a negative one. -/
def integer? (text : String) : Option Int :=
  match text.toList with
  | '-' :: digits => (natural? (String.ofList digits)).map fun n => -Int.ofNat n
  | _ => (natural? text).map Int.ofNat

/-- The number that digits with a point among them spell. -/
def decimal? (text : String) : Option Rat :=
  match splitOn '.' text.toList with
  | [whole, part] =>
    (natural? (String.ofList (whole ++ part))).map fun n => mkRat n (Nat.pow 10 part.length)
  | _ => none

/-- A natural number is what its digits spell. -/
theorem natural?_toString (n : Nat) : natural? (toString n) = some n := by
  have digits : (toString n).toList = Nat.toDigits 10 n := Nat.toList_repr
  have all : (Nat.toDigits 10 n).all Char.isDigit = true := by
    rw [List.all_eq_true]
    intro c mem
    exact Nat.isDigit_of_mem_toDigits (by omega) (by omega) mem
  rw [natural?, digits]
  simp [all]

end Multilevel.Text
