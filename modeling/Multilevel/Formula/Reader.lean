import Multilevel.Formula.Basic
import Multilevel.Formula.Error
import Multilevel.Text.Blank
import Multilevel.Text.Split

/-!
# Reading formulas

A formula text is cut at its tilde, its right side at the plus and minus signs outside of
parentheses, and each summand is read by its shape: an intercept, a group-level term in
parentheses, a crossing, an interaction or a name. Blanks may stand between any two of these.
-/
namespace Multilevel.Formula

open Text

/-- Whether a character may start a name. -/
def startsName (c : Char) : Bool := c.isAlpha || c == '_' || c == '.'

/-- Whether a character may continue a name. -/
def continuesName (c : Char) : Bool := c.isAlphanum || c == '_' || c == '.'

/-- Whether characters form a name: letters, digits, underscores and points of the first 128
characters, with no digit at the front. -/
def isName : List Char → Bool
  | [] => false
  | c :: rest => startsName c && rest.all continuesName

/-- Reads the characters, less the blanks around them, as the name of a variable. -/
def readName (chars context : List Char) : Except FormulaError String :=
  let name := stripBoth chars
  if isName name then .ok (String.ofList name)
  else .error (.name (String.ofList name) (String.ofList context))

/-- The sign in front of a summand. -/
inductive Sign where
  | plus
  | minus
  deriving Repr, DecidableEq

/-- What has been cut off the front of a right side. -/
structure Cut where
  /-- How many parentheses are open. -/
  depth : Nat
  /-- The sign in front of the summand that has been started. -/
  sign : Sign
  /-- The characters of that summand, the latest first. -/
  started : List Char
  /-- The finished summands, the latest first. -/
  finished : List (Sign × List Char)

/-- Ends the started summand at a sign. Nothing may be empty but what stands before a minus at
the very front. -/
def Cut.next (cut : Cut) (sign : Sign) (whole : List Char) : Except FormulaError Cut :=
  let term := stripBoth cut.started.reverse
  if !term.isEmpty then
    .ok { cut with sign, started := [], finished := (cut.sign, term) :: cut.finished }
  else if !cut.finished.isEmpty || cut.sign = .minus || sign = .plus then
    .error (.emptyTerm (String.ofList whole))
  else .ok { cut with sign, started := [] }

/-- Cuts a text at the signs outside of parentheses. -/
def cutSummands (whole : List Char) : List Char → Cut → Except FormulaError (List (Sign × List Char))
  | [], cut =>
    if cut.depth ≠ 0 then .error (.unbalanced (String.ofList whole))
    else
      let term := stripBoth cut.started.reverse
      if term.isEmpty then .error (.dangling (String.ofList whole))
      else .ok ((cut.sign, term) :: cut.finished).reverse
  | c :: rest, cut =>
    if c = '(' then
      cutSummands whole rest { cut with depth := cut.depth + 1, started := c :: cut.started }
    else if c = ')' then
      if cut.depth = 0 then .error (.unbalanced (String.ofList whole))
      else cutSummands whole rest { cut with depth := cut.depth - 1, started := c :: cut.started }
    else if cut.depth = 0 ∧ c = '+' then do
      cutSummands whole rest (← cut.next .plus whole)
    else if cut.depth = 0 ∧ c = '-' then do
      cutSummands whole rest (← cut.next .minus whole)
    else cutSummands whole rest { cut with started := c :: cut.started }

/-- The summands of a right side with their signs. -/
def readSummands (chars : List Char) : Except FormulaError (List (Sign × List Char)) :=
  cutSummands chars chars ⟨0, .plus, [], []⟩

/-- The choices of a given number of elements, in the order of their positions. -/
def choices {α : Type} : Nat → List α → List (List α)
  | 0, _ => [[]]
  | _ + 1, [] => []
  | count + 1, a :: rest => (choices count rest).map (a :: ·) ++ choices (count + 1) rest

/-- The terms of a crossing: all choices of its variables, by size and then by position. -/
def crossing (names : List String) : List Term :=
  (List.range names.length).flatMap fun size => (choices (size + 1) names).map Term.mk

/-- The terms that a summand without parentheses stands for. -/
def readTerms (chars : List Char) : Except FormulaError (List Term) := do
  if chars.contains '*' then
    return crossing (← (splitOn '*' chars).mapM fun piece => readName piece chars)
  else if chars.contains ':' then
    return [⟨← (splitOn ':' chars).mapM fun piece => readName piece chars⟩]
  else return [⟨[← readName chars chars]⟩]

/-- The right side of a formula, or the part of a group-level term before its bar. -/
structure RightSide where
  /-- Whether an intercept is kept. -/
  intercept : Bool
  /-- The terms, in order and with repetitions. -/
  terms : List Term
  /-- The group-level terms in order. -/
  groupTerms : List GroupTerm

/-- Adds a summand to a right side that has been read so far. How a summand in parentheses is read
is given by `readGroup`. -/
def RightSide.add (readGroup : List Char → Except FormulaError GroupTerm) (whole : List Char)
    (side : RightSide) : Sign × List Char → Except FormulaError RightSide
  | (sign, term) =>
    if term = ['0'] ∨ term = ['1'] then
      if sign = .minus ∧ term = ['0'] then .error (.removedZero (String.ofList whole))
      else .ok { side with intercept := term = ['1'] ∧ sign = .plus }
    else if sign = .minus then .error (.removal (String.ofList term))
    else if term.head? = some '(' ∧ term.getLast? = some ')' then do
      let group ← readGroup term
      return { side with groupTerms := side.groupTerms ++ [group] }
    else if term.contains '(' || term.contains ')' || term.contains '|' then
      .error (.term (String.ofList term))
    else do
      let terms ← readTerms term
      return { side with terms := side.terms ++ terms }

/-- Reads a right side. The last summand that is an intercept decides about it; without any the
intercept is kept. -/
def readSide (readGroup : List Char → Except FormulaError GroupTerm) (chars : List Char) :
    Except FormulaError RightSide := do
  let summands ← readSummands chars
  summands.foldlM (RightSide.add readGroup chars) ⟨true, [], []⟩

/-- Refuses a group-level term where none may stand. -/
def refuseGroup (term : List Char) : Except FormulaError GroupTerm :=
  .error (.nested (String.ofList term))

/-- Reads a group-level term with its parentheses. -/
def readGroup (term : List Char) : Except FormulaError GroupTerm := do
  let inner := term.tail.dropLast
  let text := String.ofList inner
  let double := hasDouble '|' inner
  match if double then splitOnDouble '|' inner else splitOn '|' inner with
  | [effects, group] =>
    let side ← readSide refuseGroup effects
    if !side.intercept && side.terms.isEmpty then throw (.noCoefficients text)
    let group ← readName group inner
    return ⟨group, side.intercept, side.terms.eraseDups, !double⟩
  | _ => throw (.bars text)

/-- Splits off the name at the front. -/
def takeName : List Char → Option (String × List Char)
  | [] => none
  | c :: rest =>
    if startsName c then
      some (String.ofList (c :: rest.takeWhile continuesName), rest.dropWhile continuesName)
    else none

/-- What a left side says: the response, and an addition with its argument. -/
structure LeftSide where
  /-- The response variable. -/
  response : String
  /-- The name and the argument of an addition. -/
  addition : Option (String × String)

/-- Reads what may follow the response after a bar: a word and a name in parentheses. -/
def readAddition (chars : List Char) : Option (String × String) := do
  let inWord := fun (c : Char) => c.isAlpha || c == '_'
  let word := (stripStart chars).takeWhile inWord
  if word.isEmpty then none
  else
    match stripStart ((stripStart chars).dropWhile inWord) with
    | '(' :: rest =>
      let (argument, rest) ← takeName (stripStart rest)
      match stripStart rest with
      | ')' :: rest =>
        if (stripStart rest).isEmpty then some (String.ofList word, argument) else none
      | _ => none
    | _ => none

/-- Reads a left side. -/
def readLeft? (chars : List Char) : Option LeftSide := do
  let (response, rest) ← takeName (stripStart chars)
  match stripStart rest with
  | [] => some ⟨response, none⟩
  | '|' :: rest => do
    let addition ← readAddition rest
    some ⟨response, some addition⟩
  | _ => none

/-- Reads a formula. -/
def read (text : String) : Except FormulaError Formula := do
  match splitOn '~' text.toList with
  | [left, right] =>
    let some side := readLeft? left
      | throw (.response (String.ofList (stripBoth left)))
    if let some (word, _) := side.addition then
      if word ≠ "trials" then throw (.addition word)
    if (stripBoth right).isEmpty then throw (.emptyRight text)
    let rest ← readSide readGroup right
    return ⟨side.response, side.addition.map Prod.snd, rest.intercept, rest.terms.eraseDups,
      rest.groupTerms⟩
  | _ => throw (.sides text)

end Multilevel.Formula
