import Multilevel.Data.Column

/-!
# Cells of a table in a text file

What the cells of a file stand for. A few words stand for a missing cell. An integer has digits and a
sign; a number may also have a point and a power of ten. Of the digits of a number the first
seventeen count, and the number they make is scaled once by a power of ten. A cell whose number is
too large is a text.
-/
namespace Multilevel.TableText

/-- The words that stand for a missing cell. -/
def missingWords : List String :=
  ["", "#N/A", "#N/A N/A", "#NA", "-1.#IND", "-1.#QNAN", "-NaN", "-nan", "1.#IND", "1.#QNAN",
    "<NA>", "N/A", "NA", "NULL", "NaN", "None", "n/a", "nan", "null"]

/-- A cell, unless it is missing. -/
def cellOf (cell : String) : Option String := if missingWords.contains cell then none else some cell

/-- Whether a character is a blank or a control character for tabs and line ends, which may stand
around a number. -/
def isMargin (c : Char) : Bool := c = ' ' || (9 ≤ c.toNat && c.toNat ≤ 13)

/-- The integer that a cell is. -/
def wholeOf? (cell : String) : Option Int :=
  if cell.toList.all fun c => c.isDigit || c = '-' || c = '+' || isMargin c then Number.int? cell
  else none

/-- The truth value that a cell is. -/
def truthOf? : String → Option Bool
  | "True" | "TRUE" | "true" => some true
  | "False" | "FALSE" | "false" => some false
  | _ => none

/-- The values of digits. -/
def digitValues (digits : List Char) : List Int := digits.map fun c => ((c.toNat - 48 : Nat) : Int)

/-- The most digits of a number that count, and the most digits of a power of ten. -/
def longest : Nat := 17

/-- A power of ten. -/
def tenTo (power : Nat) : Float := Number.ofInt (Nat.pow 10 power)

/-- A number times a power of ten, unless it is too large. -/
def scaled? (x : Float) (power : Int) : Option Float :=
  let y :=
    if 0 < power then x * tenTo power.toNat
    else if power < -616 then 0.0
    else if power < -308 then x / tenTo (-308 - power).toNat / tenTo 308
    else x / tenTo (-power).toNat
  if 308 < power || y.isInf then none else some y

/-- Reads an optional power of ten, returning the characters after it. -/
def readPower? : List Char → Option (Int × List Char)
  | [] => some (0, [])
  | c :: rest =>
    if c = 'e' || c = 'E' then
      let (negative, rest) := Number.readSign rest
      let digits := rest.takeWhile Char.isDigit
      if digits.isEmpty || longest < digits.length then none
      else
        let power : Int := (digitValues digits).foldl (fun n d => 10 * n + d) 0
        some (if negative then -power else power, rest.drop digits.length)
    else some (0, c :: rest)

/-- The number that characters spell: digits with an optional point among them, and an optional
power of ten. -/
def realOfChars? (chars : List Char) : Option Float := do
  let (negative, rest) := Number.readSign (chars.dropWhile isMargin)
  let whole := rest.takeWhile Char.isDigit
  let after := rest.drop whole.length
  let fraction := match after with
    | '.' :: digits => digits.takeWhile Char.isDigit
    | _ => []
  let after := match after with
    | '.' :: digits => digits.drop fraction.length
    | _ => after
  let (power, last) ← readPower? after
  if (whole.isEmpty && fraction.isEmpty) || !last.all isMargin then none
  else
    let kept := (whole ++ fraction).take longest
    let x := (digitValues kept).foldl (fun x d => x * 10.0 + Number.ofInt d) 0.0
    scaled? (if negative then -x else x) (power + whole.length - kept.length)

/-- The infinity that a word stands for. -/
def infinityOf? (word : String) : Option Float :=
  if ["inf", "+inf", "infinity", "+infinity"].contains word then some (1.0 / 0.0)
  else if ["-inf", "-infinity"].contains word then some (-1.0 / 0.0)
  else none

/-- The number that a cell is. -/
def realOf? (cell : String) : Option Float :=
  match realOfChars? cell.toList with
  | some x => some x
  | none => infinityOf? (String.ofList (cell.toList.map Char.toLower))

end Multilevel.TableText
