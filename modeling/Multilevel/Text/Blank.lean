/-!
# Blanks and line breaks

Blanks are the characters that separate words, in all scripts; line breaks are the characters,
and the one pair of characters, that end a line. The file reads `strip` and `splitLines` off
character lists, so that each is pinned down by a law on lists.
-/
namespace Multilevel.Text

/-- Whether a character separates words. -/
def isBlank (c : Char) : Bool :=
  let n := c.toNat
  (9 ≤ n && n ≤ 13) || (28 ≤ n && n ≤ 32) || n == 0x85 || n == 0xa0 || n == 0x1680 ||
    (0x2000 ≤ n && n ≤ 0x200a) || n == 0x2028 || n == 0x2029 || n == 0x202f || n == 0x205f ||
    n == 0x3000

/-- The characters without the blanks at the front. -/
def stripStart (chars : List Char) : List Char := chars.dropWhile isBlank

/-- The characters without the blanks at the end. -/
def stripEnd (chars : List Char) : List Char := (chars.reverse.dropWhile isBlank).reverse

/-- The characters without the blanks at both ends. -/
def stripBoth (chars : List Char) : List Char := stripEnd (stripStart chars)

/-- A text without the blanks at both ends. -/
def strip (text : String) : String := String.ofList (stripBoth text.toList)

/-- Stripping keeps a text that neither starts nor ends with a blank. -/
theorem stripBoth_eq_self {chars : List Char} (start : ∀ c ∈ chars.head?, isBlank c = false)
    (finish : ∀ c ∈ chars.getLast?, isBlank c = false) : stripBoth chars = chars := by
  have first : stripStart chars = chars := by
    cases chars with
    | nil => rfl
    | cons c rest => simp [stripStart, start c (by simp)]
  rw [stripBoth, first, stripEnd]
  have last : chars.reverse.dropWhile isBlank = chars.reverse := by
    cases reversed : chars.reverse with
    | nil => rfl
    | cons c rest =>
      have := finish c (by rw [← List.head?_reverse, reversed]; rfl)
      simp [this]
  rw [last, List.reverse_reverse]

/-- A character that ends a line. -/
def isLineBreak (c : Char) : Bool :=
  let n := c.toNat
  (10 ≤ n && n ≤ 13) || (28 ≤ n && n ≤ 30) || n == 0x85 || n == 0x2028 || n == 0x2029

/-- The lines of a text, given the characters of the line that has been started, nearest first.
A carriage return and the line feed after it end one line together, and a text that ends with a
line break has no further line. -/
def linesFrom (started : List Char) : List Char → List (List Char)
  | [] => if started.isEmpty then [] else [started.reverse]
  | '\r' :: '\n' :: rest => started.reverse :: linesFrom [] rest
  | c :: rest =>
    if isLineBreak c then started.reverse :: linesFrom [] rest else linesFrom (c :: started) rest

/-- The lines of a text, without their line breaks. -/
def splitLines (text : String) : List String := (linesFrom [] text.toList).map String.ofList

end Multilevel.Text
