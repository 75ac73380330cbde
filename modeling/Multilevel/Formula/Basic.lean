/-!
# Model formulas

A formula names the response of a model, the terms that all observations share and the terms
that vary with the levels of grouping factors, as in `y | trials(n) ~ 1 + x + x:z + (1 + x | g)`.
Its canonical text is one line with single blanks, in which the intercept is always written.
-/
namespace Multilevel

/-- A main effect of one variable or an interaction of several, in the order written. -/
structure Term where
  /-- The interacting variables. -/
  names : List String
  deriving Repr, DecidableEq, Inhabited

/-- The text of a term: its variables, separated by colons. -/
def Term.label (term : Term) : String := ":".intercalate term.names

/-- Effects that vary with the levels of a grouping factor. -/
structure GroupTerm where
  /-- The grouping factor. -/
  group : String
  /-- Whether the intercept varies. -/
  intercept : Bool
  /-- The varying slopes. -/
  terms : List Term
  /-- Whether the effects of one level are correlated: a single bar, not a double one. -/
  correlated : Bool
  deriving Repr, DecidableEq, Inhabited

/-- The texts of the summands of a right-hand side: the intercept, then the terms. -/
def summands (intercept : Bool) (terms : List Term) : List String :=
  (if intercept then "1" else "0") :: terms.map Term.label

/-- The canonical text of a group-level term. -/
def GroupTerm.text (term : GroupTerm) : String :=
  "(" ++ " + ".intercalate (summands term.intercept term.terms) ++
    (if term.correlated then " | " else " || ") ++ term.group ++ ")"

/-- A model formula. -/
structure Formula where
  /-- The response variable. -/
  response : String
  /-- The variable that holds the number of trials, if any. -/
  trials : Option String
  /-- Whether the model has an intercept. -/
  intercept : Bool
  /-- The terms shared by all observations, each once, in order of first appearance. -/
  terms : List Term
  /-- The group-level terms in order of appearance. -/
  groupTerms : List GroupTerm
  deriving Repr, DecidableEq, Inhabited

namespace Formula

/-- The variables that a formula refers to, each once, in order of appearance. -/
def names (formula : Formula) : List String :=
  (formula.response :: formula.trials.toList ++ formula.terms.flatMap Term.names ++
    formula.groupTerms.flatMap fun term => term.terms.flatMap Term.names ++ [term.group]
  ).eraseDups

/-- The grouping factors, each once, in order of appearance. -/
def groups (formula : Formula) : List String := (formula.groupTerms.map GroupTerm.group).eraseDups

/-- The variables that predict the response, grouping factors included. -/
def predictors (formula : Formula) : List String :=
  formula.terms.flatMap Term.names ++
    formula.groupTerms.flatMap fun term => term.terms.flatMap Term.names ++ [term.group]

/-- The canonical text of a formula. -/
def text (formula : Formula) : String :=
  formula.response ++
    (match formula.trials with
      | some trials => " | trials(" ++ trials ++ ")"
      | none => "") ++
    " ~ " ++
    " + ".intercalate
      (summands formula.intercept formula.terms ++ formula.groupTerms.map GroupTerm.text)

end Formula

end Multilevel
