import Multilevel.Model.Specification
import Multilevel.Program.PriorStatement

/-!
# Programs of models

The program of a specification, block by block. With an intercept and a dense design, the design
columns are centered, so that the sampler sees an intercept `temp_Intercept` apart from the
slopes; the intercept of the design as given is found again among the generated quantities. The
varying coefficients are standardized and scaled by their standard deviations and, if they are
correlated, by the Cholesky factor of their correlation matrix.
-/
namespace Multilevel

/-- A program: the generated statements of each block, and the code of the user. -/
structure Program where
  data : List Statement
  transformedData : List Statement
  parameters : List Statement
  transformedParameters : List Statement
  model : List Statement
  generatedQuantities : List Statement
  /-- The code of the user. -/
  fragments : Fragments

namespace Specification

/-- Whether the design has any columns. -/
def hasSlopes (s : Specification) : Bool := !s.terms.population.isEmpty

/-- Whether the design is passed without its zeros. -/
def isSparse (s : Specification) : Bool := s.sparse && s.hasSlopes

/-- Whether the design columns are centered. -/
def isCentered (s : Specification) : Bool := s.terms.intercept && !s.sparse && s.hasSlopes

/-- A centered design has slopes beside an intercept and is passed with its zeros. -/
theorem of_isCentered {s : Specification} (centered : s.isCentered = true) :
    s.terms.intercept = true ∧ s.hasSlopes = true ∧ s.isSparse = false := by
  rw [isCentered, Bool.and_eq_true, Bool.and_eq_true, Bool.not_eq_true'] at centered
  obtain ⟨⟨intercept, dense⟩, slopes⟩ := centered
  exact ⟨intercept, slopes, by rw [isSparse, dense, Bool.false_and]⟩

end Specification

namespace Program

/-- A bound from below. -/
def atLeast (bound : String) : Bounds := ⟨some bound, none⟩

/-- The declarations of a group's data. -/
def groupData (group : Group) : List Statement :=
  let i := group.id
  [.comment s!"data of group-level term {i} ({group.factor})",
    .declare (.int (atLeast "1")) (.levelCount i) none "number of grouping levels",
    .declare (.int (atLeast "1")) (.effectCount i) none "number of coefficients per level",
    .declare (.ints Variable.observations (atLeast "1")) (.levelIndex i) none
      "grouping indicator per observation"] ++
    ((List.range group.size).map fun k =>
      .declare (.vector {} Variable.observations) (.effectDesign i (k + 1)) none "") ++
    (if group.hasCovariance then
      [.declare (.matrix (Variable.levelCount i) (Variable.levelCount i)) (.covarianceFactor i)
        none "cholesky factor of known covariance"]
    else [])

/-- The declarations of the response and of the number of trials. -/
def responseData (s : Specification) : List Statement :=
  let n : Expr := Variable.observations
  let response : Statement :=
    if s.family.distribution.responseKind = .real then
      .declare (.vector {} n) .response none "response variable"
    else .declare (.ints n {}) .response none "response variable"
  response ::
    if s.formula.trials.isSome then [.declare (.ints n {}) .trials none "number of trials"] else []

/-- The declarations of the design. -/
def designData (s : Specification) : List Statement :=
  .declare (.int (atLeast "0")) .coefficients none "number of population-level effects" ::
  if s.isSparse then
    [.declare (.int (atLeast "0")) .nonzeroCount none "number of non-zero elements of X",
      .declare (.vector {} Variable.nonzeroCount) .nonzeros none "non-zero values of X",
      .declare (.ints Variable.nonzeroCount {}) .nonzeroColumns none "column indices of wX",
      .declare (.ints (Variable.observations + Expr.literal "1") {}) .rowStarts none
        "row start indices of wX"]
  else
    [.declare (.matrix Variable.observations Variable.coefficients) .design none
      "population-level design matrix"]

/-- The declarations of the residuals. -/
def lagData (s : Specification) : List Statement :=
  if s.autocorrelation.isSome then
    [.declare (.int (atLeast "0")) .order none "AR order",
      .declare (.ints Variable.observations (atLeast "0")) .lags none
        "number of lags per observation"]
  else []

/-- The declarations of a variable's knots. -/
def knotData (name : String) : List Statement :=
  let suffix := nameSuffix name
  [.declare (.int (atLeast "1")) (.knotCount suffix) none "",
    .declare (.vector {} (Variable.knotCount suffix)) (.knots suffix) none ""]

/-- The declarations of the data. -/
def dataBlock (s : Specification) : List Statement :=
  .declare (.int (atLeast "1")) .observations none "number of observations" :: responseData s ++
    designData s ++ s.terms.groups.flatMap groupData ++ lagData s ++
    (s.knots.flatMap fun (name, _) => knotData name) ++
    [.declare (.int {}) .priorOnly none "should the likelihood be ignored?"]

/-- The centering of the design. -/
def transformedDataBlock (s : Specification) : List Statement :=
  if s.isCentered then
    let i : Expr := Counter.place
    [.declare (.matrix Variable.observations Variable.coefficients) .centered none
        "centered version of X",
      .declare (.vector {} Variable.coefficients) .means none
        "column means of X before centering",
      .forEach .place Variable.coefficients (.ofList
        [.assign (Expr.element .means i) (.call "mean" (Expr.column .design i)),
          .assign (Expr.column .centered i)
            (Expr.column .design i - Expr.element .means i)])]
  else []

/-- The declarations of a group's parameters. -/
def groupParameters (group : Group) : List Statement :=
  let i := group.id
  [.declare (.vector (atLeast "0") (Variable.effectCount i)) (.deviations i) none
      "group-level standard deviations",
    .declare (.matrix (Variable.effectCount i) (Variable.levelCount i)) (.standardized i) none
      "standardized group-level effects"] ++
    (if group.hasCorrelations then
      [.declare (.correlationFactor (Variable.effectCount i)) (.correlationFactor i) none
        "cholesky factor of correlation matrix"]
    else [])

/-- The declarations of all parameters. -/
def parametersBlock (s : Specification) : List Statement :=
  (if s.hasSlopes then
    [.declare (.vector {} Variable.coefficients) .slopes none "population-level effects"]
    else []) ++
    (if s.terms.intercept then
      [.declare (.real {}) .temporaryIntercept none "temporary intercept"] else []) ++
    (s.family.distribution.auxiliaries.map fun parameter =>
      .declare (.real (atLeast parameter.lower)) (.auxiliary parameter) none "") ++
    (if s.autocorrelation.isSome then
      [.declare (.vector ⟨some "-1", some "1"⟩ Variable.order) .feedback none
        "autoregressive effects"] else []) ++
    s.terms.groups.flatMap groupParameters

/-- The scaled effects of a group. -/
def scaledEffects (group : Group) : Expr :=
  let i := group.id
  let scaled (factor : Variable) : Expr :=
    .call "diag_pre_multiply" (Expr.and (Variable.deviations i) factor)
  if group.hasCorrelations then
    .transposed (.grouped (scaled (.correlationFactor i) * Expr.var (.standardized i)))
  else if group.hasCovariance then
    Expr.var (.covarianceFactor i) * .transposed (.grouped (scaled (.standardized i)))
  else .transposed (.grouped (scaled (.standardized i)))

/-- The declarations of a group's single effects. -/
def columnDeclarations (group : Group) : List Statement :=
  let i := group.id
  (List.range group.size).map fun k =>
    .declare (.vector {} (Variable.levelCount i)) (.effect i (k + 1)) none ""

/-- The declarations of a group's scaled effects. -/
def effectDeclarations (group : Group) : List Statement :=
  let i := group.id
  .declare (.matrix (Variable.levelCount i) (Variable.effectCount i)) (.effects i) none
    "actual group-level effects" :: columnDeclarations group

/-- The single effects of a group, taken from its scaled effects. -/
def columnStatements (group : Group) : List Statement :=
  let i := group.id
  (List.range group.size).map fun k =>
    .assign (Variable.effect i (k + 1)) (Expr.column (.effects i) (Expr.ofNat (k + 1)))

/-- The computation of a group's scaled effects. -/
def effectStatements (group : Group) : List Statement :=
  .assign (Variable.effects group.id) (scaledEffects group) :: columnStatements group

/-- The scaling of the standardized effects. -/
def transformedParametersBlock (s : Specification) : List Statement :=
  s.terms.groups.flatMap effectDeclarations ++ s.terms.groups.flatMap effectStatements

/-- The product of the design and the slopes, if there are any. -/
def designSummands (s : Specification) : List Expr :=
  let b : Expr := Variable.slopes
  if s.isSparse then
    [.call "csr_matrix_times_vector" ((Expr.var .observations).list
      [Variable.coefficients, Variable.nonzeros, Variable.nonzeroColumns, Variable.rowStarts, b])]
  else if s.isCentered then [Expr.var .centered * b]
  else if s.hasSlopes then [Expr.var .design * b]
  else []

/-- The summands of the linear predictor that are computed for all observations at once. -/
def sharedSummands (s : Specification) : List Expr :=
  (if s.terms.intercept then [Expr.var .temporaryIntercept] else []) ++ designSummands s

/-- The computation of these summands. -/
def sharedStatements (s : Specification) : List Statement :=
  match sharedSummands s with
  | [] => []
  | first :: rest => [.add Variable.predictor (rest.foldl (· + ·) first)]

/-- The varying summands of an observation's linear predictor. -/
def groupSummands (group : Group) : List Statement :=
  let i := group.id
  let n : Expr := Counter.observation
  (List.range group.size).map fun k =>
    .add (Expr.element .predictor n)
      (Expr.element (.effect i (k + 1)) (Expr.element (.levelIndex i) n) *
        Expr.element (.effectDesign i (k + 1)) n)

/-- The feedback of residuals at an observation: its residual, its place among the residuals of the
observations after it, and what it looks back on itself. -/
def feedbackStatements : List Statement :=
  let n : Expr := Counter.observation
  let i : Expr := Counter.place
  let one := Expr.literal "1"
  [.assign (Expr.element .residuals n)
      (Expr.element .response n - Expr.element .predictor n),
    .forEach .place (Expr.element .lags n)
      (.assign (.subscript Variable.residualRows ((n + one).and i))
        (Expr.element .residuals (n + one - i))),
    .add (Expr.element .predictor n)
      (.subscript Variable.residualRows (n.and (.binary .upTo one Variable.order)) *
        Expr.var .feedback)]

/-- The statements that are run for each observation. -/
def observationStatements (s : Specification) : List Statement :=
  s.terms.groups.flatMap groupSummands ++
    (if s.autocorrelation.isSome then feedbackStatements else [])

/-- The loop over the observations. -/
def observationLoop (s : Specification) : List Statement :=
  match observationStatements s with
  | [] => []
  | body => [.forEach .observation Variable.observations (.ofList body)]

/-- The declarations of the residuals. -/
def residualDeclarations (s : Specification) : List Statement :=
  let n : Expr := Variable.observations
  let columns : Expr := Variable.order
  let zero := Expr.literal "0"
  if s.autocorrelation.isSome then
    [.declare (.matrix n columns) .residualRows
        (some (.call "rep_matrix" (zero.list [n, columns]))) "",
      .declare (.vector {} n) .residuals none ""]
  else []

/-- The computation of the linear predictor. -/
def predictorStatements (s : Specification) : List Statement :=
  let n : Expr := Variable.observations
  .declare (.vector {} n) .predictor
      (some (.call "rep_vector" ((Expr.literal "0.0").and n))) "" ::
    residualDeclarations s ++ sharedStatements s ++ observationLoop s

/-- The likelihood, which can be switched off, and the priors. -/
def modelBlock (s : Specification) : List Statement :=
  [.comment "likelihood including constants",
    .unless .priorOnly (.ofList (predictorStatements s ++
      [.increment (s.family.likelihood Variable.predictor)])),
    .comment "priors including constants"] ++
    Priors.statements s.terms s.priors

/-- The intercept of the design as given. -/
def interceptQuantity (s : Specification) : List Statement :=
  if s.terms.intercept then
    if s.isCentered then
      [.declare (.real {}) .intercept
        (some (Expr.var .temporaryIntercept -
          .call "dot_product" (Expr.and Variable.means Variable.slopes)))
        "actual population-level intercept"]
    else [.declare (.real {}) .intercept (some Variable.temporaryIntercept) ""]
  else []

/-- The correlation matrices. -/
def correlationQuantities (s : Specification) : List Statement :=
  s.terms.groups.flatMap fun group =>
    let i := group.id
    if group.hasCorrelations then
      [.declare (.correlations (Variable.effectCount i)) (.correlations i)
        (some (.call "multiply_lower_tri_self_transpose" (Variable.correlationFactor i))) ""]
    else []

/-- The quantities that are computed from each draw. -/
def generatedQuantitiesBlock (s : Specification) : List Statement :=
  let draws := if s.samplePrior = .yes then Priors.draws s.terms s.priors else []
  interceptQuantity s ++ correlationQuantities s ++ draws.map PriorDraw.declaration ++
    draws.filterMap PriorDraw.redraw?

/-- The program of a specification. -/
def ofSpecification (s : Specification) : Program where
  data := dataBlock s
  transformedData := transformedDataBlock s
  parameters := parametersBlock s
  transformedParameters := transformedParametersBlock s
  model := modelBlock s
  generatedQuantities := generatedQuantitiesBlock s
  fragments := s.fragments

/-- The statements of a block; the block of functions has none of its own. -/
def statements (p : Program) : Block → List Statement
  | .functions => []
  | .data => p.data
  | .transformedData => p.transformedData
  | .parameters => p.parameters
  | .transformedParameters => p.transformedParameters
  | .model => p.model
  | .generatedQuantities => p.generatedQuantities

/-- The title of a block. -/
def blockTitle : Block → String
  | .functions => "functions"
  | .data => "data"
  | .transformedData => "transformed data"
  | .parameters => "parameters"
  | .transformedParameters => "transformed parameters"
  | .model => "model"
  | .generatedQuantities => "generated quantities"

/-- Whether a block is left out when there is nothing in it. -/
def isOptional : Block → Bool
  | .data | .parameters | .model => false
  | _ => true

/-- The text of a block; nothing for one that is left out. The functions of the user stand as they
are. -/
def blockSource (p : Program) (block : Block) : String :=
  let fragment := p.fragments.code block
  let statements := p.statements block
  if isOptional block && statements.isEmpty && fragment.isEmpty then ""
  else if block = .functions then
    s!"{blockTitle block} \x7b\n{fragment}\n\x7d"
  else blockText (blockTitle block) (statements.flatMap (Statement.lines 0)) fragment

/-- The text of a program. -/
def source (p : Program) : String :=
  let parts := "// generated with hierstan" :: Block.all.map p.blockSource
  "\n".intercalate (parts.filter fun part => !part.isEmpty) ++ "\n"

end Program

/-- The text of the program of a specification. -/
def Specification.code (s : Specification) : String := (Program.ofSpecification s).source

end Multilevel
