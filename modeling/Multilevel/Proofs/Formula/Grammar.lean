import Mathlib
import Multilevel.Proofs.Formula.Reader
import Multilevel.Proofs.Text.Spaced

/-!
# The grammar of formulas

How a formula is written, as a tree of its parts, and what it says. The tokens of a tree stand in
the text in their order, with any blanks between them (`Written.Spells`); a tree is well formed if
its names are names, only an intercept is removed, and every group-level term keeps an effect
(`Written.IsFormed`). The formula that a tree stands for is `Written.formula`.
-/
namespace Multilevel

open Text (joined Spaced)

namespace Formula

/-- The character of a sign. -/
def Sign.mark : Sign → Char
  | plus => '+'
  | minus => '-'

/-- Whether terms are the choices of at least one of some names, by size and then by the places of
the chosen names. -/
def IsCrossing (names : List String) (terms : List Term) : Prop :=
  ∃ places : List (List (Fin names.length)),
    (∀ chosen, chosen ∈ places ↔ chosen ≠ [] ∧ chosen.Pairwise (· < ·)) ∧
    (places.Pairwise fun first second =>
      first.length < second.length ∨ first.length = second.length ∧ first < second) ∧
    terms = places.map fun chosen => ⟨chosen.map names.get⟩

/-- How terms in parentheses are written, wherever a right side may have them. -/
class Parenthesized (γ : Type) where
  /-- The tokens, parentheses included. -/
  tokens : γ → List (List Char)
  /-- Whether the parts are as they should be. -/
  IsFormed : γ → Prop
  /-- The term that is written. -/
  term : γ → GroupTerm

/-- Where nothing may stand in parentheses. -/
instance : Parenthesized Empty := ⟨nofun, nofun, nofun⟩

/-- A summand of a right side as it is written. -/
inductive Summand (γ : Type) where
  /-- No intercept. -/
  | zero
  /-- The intercept. -/
  | one
  /-- A name, or several joined by colons. -/
  | interaction (first : String) (rest : List String)
  /-- Two names or more joined by asterisks. -/
  | crossing (first second : String) (rest : List String)
  /-- A term in parentheses. -/
  | group (written : γ)

variable {γ : Type}

namespace Summand

/-- What a summand with a sign says about the intercept, if anything. -/
def intercept? : Sign × Summand γ → Option Bool
  | (_, zero) => some false
  | (sign, one) => some (sign = .plus)
  | _ => none

/-- The terms that a summand stands for. -/
def terms : Summand γ → List Term
  | interaction first rest => [⟨first :: rest⟩]
  | crossing first second rest => Formula.crossing (first :: second :: rest)
  | _ => []

/-- The names of a summand without parentheses. -/
def names : Summand γ → List String
  | interaction first rest => first :: rest
  | crossing first second rest => first :: second :: rest
  | _ => []

variable [Parenthesized γ]

/-- The tokens of a summand. -/
def tokens : Summand γ → List (List Char)
  | zero => [['0']]
  | one => [['1']]
  | interaction first rest => joined ':' (first :: rest)
  | crossing first second rest => joined '*' (first :: second :: rest)
  | group written => Parenthesized.tokens written

/-- The group-level term that a summand stands for, if it is one. -/
def groupTerms : Summand γ → List GroupTerm
  | group written => [Parenthesized.term written]
  | _ => []

/-- Whether a summand may stand behind a sign: nothing but the intercept is removed. -/
structure IsFormed (sign : Sign) (summand : Summand γ) : Prop where
  /-- What is removed is the intercept. -/
  sign : sign = .minus → summand = one
  /-- The names are names. -/
  names : ∀ name ∈ summand.names, IsVariableName name
  /-- A term in parentheses is as it should be. -/
  group : ∀ written, summand = group written → Parenthesized.IsFormed written

end Summand

/-- A right side as it is written: summands, each with the sign in front of it. The plus in front of
the first one is left out. -/
abbrev Side (γ : Type) := List (Sign × Summand γ)

namespace Side

/-- Whether an intercept is kept: the last summand that is one decides. -/
def intercept (side : Side γ) : Bool := (side.filterMap Summand.intercept?).getLast?.getD true

/-- The terms of a right side, each once, in order of first appearance. -/
def terms (side : Side γ) : List Term := (side.flatMap fun summand => summand.2.terms).eraseDups

variable [Parenthesized γ]

/-- The group-level terms of a right side in order. -/
def groupTerms (side : Side γ) : List GroupTerm :=
  side.flatMap fun summand => summand.2.groupTerms

/-- The tokens of summands with all of their signs. -/
def signedTokens (side : Side γ) : List (List Char) :=
  side.flatMap fun (sign, summand) => [sign.mark] :: summand.tokens

/-- The tokens of a right side. -/
def tokens : Side γ → List (List Char)
  | (.plus, summand) :: rest => summand.tokens ++ signedTokens rest
  | side => signedTokens side

/-- Whether a right side has summands, each of which is as it should be. -/
structure IsFormed (side : Side γ) : Prop where
  /-- There is a summand. -/
  nonempty : side ≠ []
  /-- The summands are as they should be. -/
  summands : ∀ summand ∈ side, summand.2.IsFormed summand.1

end Side

/-- A group-level term as it is written. -/
structure Nested where
  /-- What varies. -/
  side : Side Empty
  /-- Whether there is a single bar. -/
  correlated : Bool
  /-- The grouping factor. -/
  factor : String

namespace Nested

/-- The bar of a group-level term. -/
def bar (nested : Nested) : List Char := if nested.correlated then ['|'] else ['|', '|']

/-- The tokens of a group-level term. -/
def tokens (nested : Nested) : List (List Char) :=
  ['('] :: (nested.side.tokens ++ [nested.bar, nested.factor.toList, [')']])

/-- Whether the parts of a group-level term are as they should be, and an effect is kept. -/
structure IsFormed (nested : Nested) : Prop where
  /-- What varies is as it should be. -/
  side : nested.side.IsFormed
  /-- The factor has a name. -/
  factor : IsVariableName nested.factor
  /-- An effect is kept. -/
  effects : nested.side.intercept = true ∨ nested.side.terms ≠ []

/-- The group-level term that is written. -/
def term (nested : Nested) : GroupTerm :=
  ⟨nested.factor, nested.side.intercept, nested.side.terms, nested.correlated⟩

/-- Group-level terms stand in parentheses. -/
instance : Parenthesized Nested := ⟨tokens, IsFormed, term⟩

end Nested

/-- A formula as it is written. -/
structure Written where
  /-- The response. -/
  response : String
  /-- The variable that holds the number of trials, if it is given. -/
  trials : Option String
  /-- The right side. -/
  side : Side Nested

namespace Written

/-- The tokens of the left side. -/
def left (written : Written) : List (List Char) :=
  written.response.toList ::
    match written.trials with
    | none => []
    | some trials => [['|'], "trials".toList, ['('], trials.toList, [')']]

/-- Whether a text consists of the parts of a formula, with any blanks between them. -/
def Spells (written : Written) (text : String) : Prop :=
  Spaced (written.left ++ ['~'] :: written.side.tokens) text.toList

/-- Whether the parts of a formula are as they should be. -/
structure IsFormed (written : Written) : Prop where
  /-- The response has a name. -/
  response : IsVariableName written.response
  /-- The number of trials has a name. -/
  trials : ∀ trials ∈ written.trials, IsVariableName trials
  /-- The right side is as it should be. -/
  side : written.side.IsFormed

/-- The formula that is written. -/
def formula (written : Written) : Formula :=
  ⟨written.response, written.trials, written.side.intercept, written.side.terms,
    written.side.groupTerms⟩

end Written

end Formula

end Multilevel
