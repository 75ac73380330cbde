import Multilevel.Program.Variable

/-!
# Expressions of a program

Expressions over the variables of a generated program. An argument list, a subscript list and
the split between outcome and parameters of a density are expressions joined by a mark, so that
calls and subscripts take one expression each. Text that the user wrote stands as it is and
mentions no generated variable.
-/
namespace Multilevel

/-- The counter of a loop. -/
inductive Counter where
  /-- Counts observations. -/
  | observation
  /-- Counts columns or lags. -/
  | place
  deriving Repr, DecidableEq, Inhabited

/-- The name of a counter. -/
def Counter.name : Counter → String
  | observation => "n"
  | place => "i"

/-- A mark between two expressions. -/
inductive Operator where
  | plus
  | minus
  | times
  /-- Separates arguments and subscripts. -/
  | comma
  /-- Separates the outcome of a density from its parameters. -/
  | given
  /-- Separates the ends of a range. -/
  | upTo
  deriving Repr, DecidableEq, Inhabited

/-- The text of a mark. -/
def Operator.text : Operator → String
  | plus => " + "
  | minus => " - "
  | times => " * "
  | comma => ", "
  | given => " | "
  | upTo => ":"

/-- An expression. -/
inductive Expr where
  | var (v : Variable)
  | counter (c : Counter)
  | literal (digits : String)
  /-- Text of the user. -/
  | verbatim (text : String)
  /-- All places of a dimension. -/
  | everything
  | binary (op : Operator) (left right : Expr)
  | grouped (inner : Expr)
  | transposed (inner : Expr)
  | call (function : String) (arguments : Expr)
  | subscript (array places : Expr)
  deriving Repr, DecidableEq, Inhabited

namespace Expr

/-- The text of an expression. -/
def text : Expr → String
  | var v => v.name
  | counter c => c.name
  | literal digits => digits
  | verbatim text => text
  | everything => ""
  | binary op left right => left.text ++ op.text ++ right.text
  | grouped inner => "(" ++ inner.text ++ ")"
  | transposed inner => inner.text ++ "'"
  | call function arguments => function ++ "(" ++ arguments.text ++ ")"
  | subscript array places => array.text ++ "[" ++ places.text ++ "]"

/-- The variables that an expression uses. -/
def uses : Expr → List Variable
  | var v => [v]
  | counter _ | literal _ | verbatim _ | everything => []
  | binary _ left right => left.uses ++ right.uses
  | grouped inner | transposed inner => inner.uses
  | call _ arguments => arguments.uses
  | subscript array places => array.uses ++ places.uses

/-- The expression of a natural number. -/
def ofNat (n : Nat) : Expr := literal (toString n)

instance : Coe Variable Expr := ⟨var⟩
instance : Coe Counter Expr := ⟨counter⟩
instance : Add Expr := ⟨binary .plus⟩
instance : Sub Expr := ⟨binary .minus⟩
instance : Mul Expr := ⟨binary .times⟩

/-- Two expressions as arguments or subscripts. -/
def and (left right : Expr) : Expr := binary .comma left right

/-- Several expressions as arguments, the first one given apart. -/
def list (first : Expr) (rest : List Expr) : Expr := rest.foldl and first

/-- A column of a matrix. -/
def column (matrix : Variable) (place : Expr) : Expr := .subscript matrix (and everything place)

/-- An element of a vector or of an array. -/
def element (array : Variable) (place : Expr) : Expr := .subscript array place

end Expr

/-- The inverse of a link function, applied to an expression. -/
def Link.invert (link : Link) (e : Expr) : Expr :=
  match link with
  | identity => e
  | log => .call "exp" e
  | inverse => .call "inv" e
  | sqrt => .call "square" e
  | logit => .call "inv_logit" e
  | probit => .call "Phi" e
  | cloglog => .call "inv_cloglog" e

/-- The log density of the response given its mean. -/
def Distribution.density (distribution : Distribution) (mean : Expr) : Expr :=
  let outcome : Expr := Variable.response
  let sigma : Expr := Variable.auxiliary .sigma
  match distribution with
  | gaussian => .call "normal_lpdf" (.binary .given outcome (mean.and sigma))
  | student =>
    .call "student_t_lpdf"
      (.binary .given outcome ((Expr.var (.auxiliary .nu)).list [mean, sigma]))
  | poisson => .call "poisson_lpmf" (.binary .given outcome mean)
  | negbinomial =>
    .call "neg_binomial_2_lpmf"
      (.binary .given outcome (mean.and (Variable.auxiliary .shape)))
  | bernoulli => .call "bernoulli_lpmf" (.binary .given outcome mean)
  | binomial =>
    .call "binomial_lpmf" (.binary .given outcome ((Expr.var .trials).and mean))

/-- The log density of the response given the linear predictor. -/
def Family.likelihood (family : Family) (predictor : Expr) : Expr :=
  family.distribution.density (family.link.invert predictor)

end Multilevel
