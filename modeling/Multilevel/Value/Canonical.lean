import Multilevel.Value.Display

/-!
# Canonical text of a value

Two values that differ only in the order of their keys have one canonical text, which the
identity of a program is computed from. Keys stand in ascending order and nothing is written
that carries no meaning. A text stands in double quotes and holds characters of the first 128
alone: the quote and the backslash are escaped, five control characters have letters of their
own, and every other character is written by its units of sixteen bits.
-/
namespace Multilevel.Value

/-- One unit of sixteen bits as an escape. -/
def unitEscape (unit : Nat) : List Char := '\\' :: 'u' :: Text.hexDigits 4 unit

/-- A character as canonical text shows it. -/
def canonicalChar (c : Char) : List Char :=
  if c == '"' then ['\\', '"']
  else if c == '\\' then ['\\', '\\']
  else if c == '\n' then ['\\', 'n']
  else if c == '\r' then ['\\', 'r']
  else if c == '\t' then ['\\', 't']
  else if c == '\x0c' then ['\\', 'f']
  else if c == '\x08' then ['\\', 'b']
  else if 32 ≤ c.toNat && c.toNat < 127 then [c]
  else if c.toNat < 0x10000 then unitEscape c.toNat
  else
    let above := c.toNat - 0x10000
    unitEscape (0xd800 + above / 0x400) ++ unitEscape (0xdc00 + above % 0x400)

/-- A text between double quotes. -/
def canonicalText (text : String) : String :=
  String.ofList ('"' :: text.toList.flatMap canonicalChar ++ ['"'])

/-- A floating-point number; infinities and the lack of a number are words. -/
def canonicalFloat (x : Float) : String :=
  match Number.Reading.ofFloat x with
  | .nan => "NaN"
  | .infinite negative => Number.signText negative ++ "Infinity"
  | _ => Number.display x

mutual

/-- Canonical text of a value. The fields of a record are sorted after each has been written. -/
def canonical : Value → String
  | null => "null"
  | bool b => if b then "true" else "false"
  | int n => toString n
  | float x => canonicalFloat x
  | text s => canonicalText s
  | list items => "[" ++ ",".intercalate (canonicalItems items) ++ "]"
  | record fields =>
    let sorted := (canonicalFields fields).mergeSort fun a b => a.1 ≤ b.1
    "\x7b" ++ ",".intercalate (sorted.map fun (key, body) => canonicalText key ++ ":" ++ body)
      ++ "\x7d"
  | function name parameters returns => canonicalText (display (function name parameters returns))

/-- Canonical texts of the values of a list. -/
def canonicalItems : List Value → List String
  | [] => []
  | item :: rest => canonical item :: canonicalItems rest

/-- The keys of a record with the canonical texts of their values. -/
def canonicalFields : List (String × Value) → List (String × String)
  | [] => []
  | (key, item) :: rest => (key, canonical item) :: canonicalFields rest

end

end Multilevel.Value
