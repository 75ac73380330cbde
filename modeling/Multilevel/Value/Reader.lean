import Multilevel.Entries
import Multilevel.Number.Reader
import Multilevel.Value.Basic

/-!
# Reading values

Reads the text of a value: the words for nothing and for truth values, numbers, texts in double
quotes, lists in brackets and records in braces, with blanks between them. A number with a point
or a power of ten is a floating-point number, any other an integer. Of two fields with one name
the later replaces the earlier.
-/
namespace Multilevel.Value

/-- Skips blanks between the parts of a value. -/
def skipBlanks (chars : List Char) : List Char :=
  chars.dropWhile fun c => c == ' ' || c == '\t' || c == '\n' || c == '\r'

/-- The value of four hexadecimal digits, and the characters after them. -/
def readUnit : List Char → Option (Nat × List Char)
  | a :: b :: c :: d :: rest => do
    let digit (c : Char) : Option Nat :=
      if c.isDigit then some (c.toNat - 48)
      else if 'a' ≤ c && c ≤ 'f' then some (c.toNat - 87)
      else if 'A' ≤ c && c ≤ 'F' then some (c.toNat - 55)
      else none
    return (((← digit a) * 16 + (← digit b)) * 256 + (← digit c) * 16 + (← digit d), rest)
  | _ => none

/-- The character that an escape after a backslash stands for. Half a pair of units stands for
the replacement character. -/
def readEscape : List Char → Option (Char × List Char)
  | 'n' :: rest => some ('\n', rest)
  | 't' :: rest => some ('\t', rest)
  | 'r' :: rest => some ('\r', rest)
  | 'b' :: rest => some ('\x08', rest)
  | 'f' :: rest => some ('\x0c', rest)
  | 'u' :: rest => do
    let (unit, rest) ← readUnit rest
    if unit < 0xd800 || 0xe000 ≤ unit then return (Char.ofNat unit, rest)
    else
      match rest with
      | '\\' :: 'u' :: more =>
        let (low, last) ← readUnit more
        if unit < 0xdc00 && 0xdc00 ≤ low && low < 0xe000 then
          return (Char.ofNat (0x10000 + (unit - 0xd800) * 0x400 + (low - 0xdc00)), last)
        else return ('\ufffd', rest)
      | _ => return ('\ufffd', rest)
  | c :: rest => some (c, rest)
  | [] => none

/-- Reads the characters of a text up to its closing quote; those read so far stand in reverse. -/
def readText : Nat → List Char → List Char → Option (String × List Char)
  | 0, _, _ => none
  | fuel + 1, done, chars =>
    match chars with
    | [] => none
    | '"' :: rest => some (String.ofList done.reverse, rest)
    | '\\' :: rest => do
      let (c, rest) ← readEscape rest
      readText fuel (c :: done) rest
    | c :: rest => readText fuel (c :: done) rest

/-- Whether a character may stand in a number. -/
def isNumberChar (c : Char) : Bool :=
  c.isDigit || c == '-' || c == '+' || c == '.' || c == 'e' || c == 'E'

/-- The number that characters spell. -/
def numberOf (chars : List Char) : Option Value :=
  if chars.all fun c => c.isDigit || c == '-' then (Number.intOfChars? chars).map int
  else (Number.floatOfChars? chars).map float

/-- The values that words stand for. -/
def words : List (String × Value) :=
  [("null", null), ("true", bool true), ("false", bool false), ("NaN", float (0.0 / 0.0)),
    ("Infinity", float (1.0 / 0.0)), ("-Infinity", float (-1.0 / 0.0))]

/-- Reads a word or a number. -/
def readPlain (chars : List Char) : Option (Value × List Char) :=
  match words.find? fun (word, _) => word.toList.isPrefixOf chars with
  | some (word, value) => some (value, chars.drop word.length)
  | none => (numberOf (chars.takeWhile isNumberChar)).map (·, chars.dropWhile isNumberChar)

mutual

/-- Reads a value. -/
def readValue : Nat → List Char → Option (Value × List Char)
  | 0, _ => none
  | fuel + 1, chars =>
    match skipBlanks chars with
    | '"' :: rest => (readText (rest.length + 1) [] rest).map fun (s, rest) => (text s, rest)
    | '[' :: rest =>
      match skipBlanks rest with
      | ']' :: rest => some (list [], rest)
      | rest => (readItems fuel [] rest).map fun (items, rest) => (list items, rest)
    | '\x7b' :: rest =>
      match skipBlanks rest with
      | '\x7d' :: rest => some (record [], rest)
      | rest => (readFields fuel [] rest).map fun (fields, rest) => (record fields, rest)
    | rest => readPlain rest

/-- Reads the items of a list up to its closing bracket; those read so far stand in reverse. -/
def readItems : Nat → List Value → List Char → Option (List Value × List Char)
  | 0, _, _ => none
  | fuel + 1, done, chars => do
    let (item, rest) ← readValue fuel chars
    match skipBlanks rest with
    | ',' :: rest => readItems fuel (item :: done) rest
    | ']' :: rest => some ((item :: done).reverse, rest)
    | _ => none

/-- Reads the fields of a record up to its closing brace. -/
def readFields : Nat → List (String × Value) → List Char →
    Option (List (String × Value) × List Char)
  | 0, _, _ => none
  | fuel + 1, done, chars =>
    match skipBlanks chars with
    | '"' :: rest => do
      let (key, rest) ← readText (rest.length + 1) [] rest
      match skipBlanks rest with
      | ':' :: rest =>
        let (item, rest) ← readValue fuel rest
        match skipBlanks rest with
        | ',' :: rest => readFields fuel (Entries.put done key item) rest
        | '\x7d' :: rest => some (Entries.put done key item, rest)
        | _ => none
      | _ => none
    | _ => none

end

/-- The value that a text spells. -/
def read? (text : String) : Option Value :=
  match readValue (text.length + 1) text.toList with
  | some (value, rest) => if (skipBlanks rest).isEmpty then some value else none
  | none => none

end Multilevel.Value
