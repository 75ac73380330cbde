/-!
# Faults of a formula

Why a text is no formula, or why a formula does not fit the data and the family of the response.
-/
namespace Multilevel

/-- A fault of a formula. -/
inductive FormulaError where
  /-- The two sides are not separated by exactly one tilde. -/
  | sides (text : String)
  /-- The left side is neither a name nor a name with an addition. -/
  | response (text : String)
  /-- The addition after the response is not a number of trials. -/
  | addition (name : String)
  /-- Nothing stands on the right side. -/
  | emptyRight (text : String)
  /-- A parenthesis lacks its counterpart. -/
  | unbalanced (text : String)
  /-- Nothing stands between two operators. -/
  | emptyTerm (text : String)
  /-- Nothing follows the last operator. -/
  | dangling (text : String)
  /-- A variable is not a name. -/
  | name (name context : String)
  /-- The absence of an intercept is removed. -/
  | removedZero (text : String)
  /-- Something other than the intercept is removed. -/
  | removal (term : String)
  /-- A group-level term stands inside of another one. -/
  | nested (term : String)
  /-- A term has parentheses or bars in the wrong places. -/
  | term (term : String)
  /-- A group-level term is not split by exactly one bar. -/
  | bars (text : String)
  /-- A group-level term has neither an intercept nor slopes. -/
  | noCoefficients (text : String)
  /-- Variables are not in the data. -/
  | missing (names : List String)
  /-- The response is one of its own predictors. -/
  | predictor (response : String)
  /-- The family needs a number of trials. -/
  | trialsNeeded (family response : String)
  /-- The family has no use for a number of trials. -/
  | trialsRefused (family : String)
  /-- Two terms produce the same column. -/
  | duplicatedColumns (labels : List String)
  /-- A coefficient varies twice with the same factor. -/
  | duplicatedCoefficient (coefficient group : String)
  deriving Repr, DecidableEq

/-- The text that reports a fault. -/
def FormulaError.message : FormulaError → String
  | .sides text => s!"Formula '{text}' must contain exactly one '~'"
  | .response text => s!"Invalid response specification '{text}'"
  | .addition word => s!"Unsupported addition term '{word}'. Supported: trials"
  | .emptyRight text => s!"Formula '{text}' has an empty right-hand side"
  | .unbalanced text => s!"Unbalanced parentheses in '{text}'"
  | .emptyTerm text => s!"Empty term in '{text}'"
  | .dangling text => s!"Formula '{text}' ends with a dangling operator"
  | .name written context => s!"Invalid variable name '{written}' in '{context}'"
  | .removedZero text => s!"Cannot remove '0' in '{text}'"
  | .removal text => s!"Removing terms other than the intercept is not supported: '-{text}'"
  | .nested text => s!"Group-level terms cannot be nested: '{text}'"
  | .term text => s!"Unsupported term '{text}'"
  | .bars text => s!"Group-level term '({text})' must contain a single bar"
  | .noCoefficients text => s!"Group-level term '({text})' has no coefficients"
  | .missing names =>
    "The following variables are missing in 'data': " ++ ", ".intercalate names
  | .predictor outcome => s!"The response '{outcome}' cannot also be used as a predictor"
  | .trialsNeeded family outcome =>
    s!"Family '{family}' requires the number of trials, e.g. '{outcome} | trials(n) ~ ...'"
  | .trialsRefused family => s!"'trials()' is not allowed with family '{family}'"
  | .duplicatedColumns labels =>
    "Duplicated design matrix columns: " ++ ", ".intercalate labels
  | .duplicatedCoefficient coefficient group =>
    s!"Group-level coefficient '{coefficient}' is specified more than once for grouping factor " ++
      s!"'{group}'"

end Multilevel
