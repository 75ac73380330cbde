import Multilevel.Prior.Slots
import Multilevel.Program.Statement

/-!
# Priors in a program

A prior adds its log density to the target and can be drawn from. The distribution of correlation
matrices is that of their Cholesky factors in a program. An empty prior adds nothing.
-/
namespace Multilevel

/-- The name of a distribution in a program. -/
def programDistribution (name : String) : String :=
  if name = "lkj" then "lkj_corr_cholesky" else name

namespace Prior

/-- The log density of a prior at a parameter. -/
def density (prior : Prior) (parameter : Expr) : Expr :=
  let outcome := if prior.arguments.isEmpty then parameter
    else .binary .given parameter (.verbatim prior.arguments)
  .call (programDistribution prior.distribution ++ "_lpdf") outcome

/-- The statement that adds the log density of a prior, if there is one. -/
def increment? (prior : Prior) (parameter : Expr) : Option Statement :=
  if prior.text.isEmpty then none else some (.increment (prior.density parameter))

/-- A draw from a prior. -/
def draw (prior : Prior) : Expr :=
  .call (programDistribution prior.distribution ++ "_rng") (.verbatim prior.arguments)

end Prior

/-- A draw from a prior, kept in a variable of the program. -/
structure PriorDraw where
  /-- The variable that holds the draw. -/
  target : Variable
  /-- The prior. -/
  prior : Prior
  /-- The bounds that the draw has to keep, if any. -/
  bounds : Option (String × Option String)
  deriving Repr

namespace PriorDraw

/-- The declaration of a draw. -/
def declaration (d : PriorDraw) : Statement :=
  .declare (.real {}) d.target (some d.prior.draw) ""

/-- The statement that draws anew outside of the bounds, if there are any. -/
def redraw? (d : PriorDraw) : Option Statement :=
  d.bounds.map fun (lower, upper) => .redraw d.target lower upper d.prior.draw

end PriorDraw

namespace Priors

/-- A draw of a variable from a prior, unless the prior is empty. -/
def drawOf (v : Variable) (prior : Prior) (bounds : Option (String × Option String)) :
    List PriorDraw :=
  if prior.text.isEmpty then [] else [⟨v, prior, bounds⟩]

/-- All draws from the priors of a model, in the order of the program. -/
def draws (tree : TermTree) (priors : List Prior) : List PriorDraw :=
  let classPrior (name : String) : Prior := lookup priors ⟨name, "", ""⟩
  (if tree.population.isEmpty then [] else drawOf .priorSlopes (classPrior "b") none) ++
    (if tree.intercept then drawOf .priorIntercept (classPrior "Intercept") none else []) ++
    (tree.family.distribution.auxiliaries.flatMap fun parameter =>
      drawOf (.priorAuxiliary parameter) (classPrior parameter.name)
        (some (parameter.lower, none))) ++
    (if tree.autocorrelation.isSome then
      drawOf .priorFeedback (classPrior "ar") (some ("-1", some "1")) else []) ++
    tree.groups.flatMap fun group =>
      drawOf (.priorDeviations group.id) (lookup priors ⟨"sd", "", group.factor⟩)
        (some ("0", none))

/-- The statements that add the priors of the coefficients shared by all observations: a single one
if all have the same prior in effect. -/
def slopeStatements (tree : TermTree) (priors : List Prior) : List Statement :=
  let effective := tree.population.map fun coefficient => lookup priors ⟨"b", coefficient, ""⟩
  match effective with
  | [] => []
  | first :: _ =>
    if effective.all fun prior => prior.text == first.text then
      (first.increment? Variable.slopes).toList
    else
      effective.zipIdx.filterMap fun (prior, k) =>
        prior.increment? (Expr.element .slopes (Expr.ofNat (k + 1)))

/-- The statements that add the priors of a group's parameters. -/
def groupStatements (priors : List Prior) (group : Group) : List Statement :=
  let i := group.id
  let deviations := group.coefficients.zipIdx.filterMap fun (coefficient, k) =>
    (lookup priors ⟨"sd", coefficient, group.factor⟩).increment?
      (Expr.element (.deviations i) (Expr.ofNat (k + 1)))
  let standardized : Statement :=
    .increment (.call "std_normal_lpdf" (.call "to_vector" (Variable.standardized i)))
  let correlations :=
    if group.hasCorrelations then
      ((lookup priors ⟨"cor", "", group.factor⟩).increment?
        (Variable.correlationFactor i)).toList
    else []
  deviations ++ standardized :: correlations

/-- The statements that add the priors of all parameters. -/
def statements (tree : TermTree) (priors : List Prior) : List Statement :=
  let classStatement (name : String) (v : Variable) : List Statement :=
    ((lookup priors ⟨name, "", ""⟩).increment? v).toList
  slopeStatements tree priors ++
    (if tree.intercept then classStatement "Intercept" .temporaryIntercept else []) ++
    (tree.family.distribution.auxiliaries.flatMap fun parameter =>
      classStatement parameter.name (.auxiliary parameter)) ++
    (if tree.autocorrelation.isSome then classStatement "ar" .feedback else []) ++
    tree.groups.flatMap (groupStatements priors)

end Priors

end Multilevel
