import Multilevel.Family.Basic

/-!
# Variables of a program

Every variable that a generated program declares, apart from those of the user's code. A
variable is named after what it holds and the number of its group-level term or coefficient.
-/
namespace Multilevel

/-- A variable of a generated program. Terms and coefficients are counted from one. -/
inductive Variable where
  /-- The number of observations. -/
  | observations
  /-- The response. -/
  | response
  /-- The numbers of trials. -/
  | trials
  /-- The number of coefficients shared by all observations. -/
  | coefficients
  /-- The design matrix. -/
  | design
  /-- The number of design entries that are not zero. -/
  | nonzeroCount
  /-- The design entries that are not zero. -/
  | nonzeros
  /-- The columns of those entries. -/
  | nonzeroColumns
  /-- The starts of the rows among those entries. -/
  | rowStarts
  /-- The number of a factor's levels. -/
  | levelCount (term : Nat)
  /-- The number of coefficients that vary with a factor. -/
  | effectCount (term : Nat)
  /-- The level of each observation. -/
  | levelIndex (term : Nat)
  /-- The design column of a varying coefficient. -/
  | effectDesign (term coefficient : Nat)
  /-- The Cholesky factor of a known covariance. -/
  | covarianceFactor (term : Nat)
  /-- The order of the autoregressive process. -/
  | order
  /-- The number of residuals that each observation passes on. -/
  | lags
  /-- The number of a variable's knots. -/
  | knotCount (suffix : String)
  /-- The knots of a variable. -/
  | knots (suffix : String)
  /-- Whether the likelihood is ignored. -/
  | priorOnly
  /-- The design matrix with columns of mean zero. -/
  | centered
  /-- The means of the design columns. -/
  | means
  /-- The coefficients shared by all observations. -/
  | slopes
  /-- The intercept of the centered design. -/
  | temporaryIntercept
  /-- A parameter of the response distribution. -/
  | auxiliary (parameter : Auxiliary)
  /-- The autoregressive coefficients. -/
  | feedback
  /-- The standard deviations of varying coefficients. -/
  | deviations (term : Nat)
  /-- The standardized varying coefficients. -/
  | standardized (term : Nat)
  /-- The Cholesky factor of a correlation matrix. -/
  | correlationFactor (term : Nat)
  /-- The varying coefficients of a term. -/
  | effects (term : Nat)
  /-- A single varying coefficient. -/
  | effect (term coefficient : Nat)
  /-- The linear predictor. -/
  | predictor
  /-- The residuals that each observation looks back on. -/
  | residualRows
  /-- The residuals. -/
  | residuals
  /-- The intercept of the design as given. -/
  | intercept
  /-- A correlation matrix. -/
  | correlations (term : Nat)
  /-- A draw from the prior of the shared coefficients. -/
  | priorSlopes
  /-- A draw from the prior of the intercept. -/
  | priorIntercept
  /-- A draw from the prior of a distribution parameter. -/
  | priorAuxiliary (parameter : Auxiliary)
  /-- A draw from the prior of the autoregressive coefficients. -/
  | priorFeedback
  /-- A draw from the prior of a term's standard deviations. -/
  | priorDeviations (term : Nat)
  deriving Repr, DecidableEq, Inhabited

/-- The name of a variable. -/
def Variable.name : Variable → String
  | observations => "N"
  | response => "Y"
  | trials => "trials"
  | coefficients => "K"
  | design => "X"
  | nonzeroCount => "NZ_X"
  | nonzeros => "wX"
  | nonzeroColumns => "vX"
  | rowStarts => "uX"
  | levelCount i => s!"N_{i}"
  | effectCount i => s!"M_{i}"
  | levelIndex i => s!"J_{i}"
  | effectDesign i k => s!"Z_{i}_{k}"
  | covarianceFactor i => s!"Lcov_{i}"
  | order => "Kar"
  | lags => "J_lag"
  | knotCount suffix => s!"Nk_{suffix}"
  | knots suffix => s!"knots_{suffix}"
  | priorOnly => "prior_only"
  | centered => "Xc"
  | means => "means_X"
  | slopes => "b"
  | temporaryIntercept => "temp_Intercept"
  | auxiliary parameter => parameter.name
  | feedback => "ar"
  | deviations i => s!"sd_{i}"
  | standardized i => s!"z_{i}"
  | correlationFactor i => s!"L_{i}"
  | effects i => s!"r_{i}"
  | effect i k => s!"r_{i}_{k}"
  | predictor => "mu"
  | residualRows => "Err"
  | residuals => "e"
  | intercept => "b_Intercept"
  | correlations i => s!"Cor_{i}"
  | priorSlopes => "prior_b"
  | priorIntercept => "prior_Intercept"
  | priorAuxiliary parameter => s!"prior_{parameter.name}"
  | priorFeedback => "prior_ar"
  | priorDeviations i => s!"prior_sd_{i}"

/-- The end of a variable's name that stands for a column: characters other than letters, digits
and underscores become underscores. -/
def nameSuffix (column : String) : String :=
  column.map fun c => if c.isAlphanum || c == '_' then c else '_'

end Multilevel
