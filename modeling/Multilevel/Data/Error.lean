/-!
# Faults of the data

Why data are no table, or why a table cannot be used with a model.
-/
namespace Multilevel

/-- A fault of the data of a model. -/
inductive DataError where
  /-- The data are neither a table nor a record of columns. -/
  | notTable (kind : String)
  /-- The columns of a record have different lengths. -/
  | lengths
  /-- A record holds single values only, so its number of rows is unknown. -/
  | noLength
  /-- Some columns of a record name their rows and others are lists. -/
  | namedRows
  /-- No complete row is left. -/
  | noRows
  /-- The response is not numeric. -/
  | notNumeric (response : String)
  /-- The response is infinite somewhere. -/
  | notFinite (response : String)
  /-- The family needs an integer response. -/
  | fractional (family response : String)
  /-- The family needs a non-negative response. -/
  | negative (family : String)
  /-- The family needs a response of zeros and ones. -/
  | notBinary (family : String)
  /-- The numbers of trials are not positive integers. -/
  | trials (name : String)
  /-- The response is negative or exceeds the number of trials. -/
  | outsideTrials (name family : String)
  /-- Knots belong to a variable that is not in the formula. -/
  | knotsUnknown (name : String)
  /-- Knots are infinite, missing or not there at all. -/
  | knotsNotFinite (name : String)
  /-- A covariance matrix belongs to a variable that is no grouping factor. -/
  | covarianceUnknown (name : String)
  /-- Levels have no row or no column in their covariance matrix. -/
  | covarianceLevels (name : String) (levels : List String)
  /-- A covariance matrix does not have one row and one column per level. -/
  | covarianceShape (name : String) (count : Nat) (shape : String)
  /-- A covariance matrix differs from its transpose. -/
  | covarianceSymmetry (name : String)
  /-- A covariance matrix is not positive definite. -/
  | covarianceDefinite (name : String)
  deriving Repr, DecidableEq

/-- The text that reports a fault. -/
def DataError.message : DataError → String
  | .notTable kind => s!"'data' must be a pandas DataFrame or a mapping, got {kind}"
  | .lengths =>
    "Cannot convert the data into a data frame: All arrays must be of the same length"
  | .noLength =>
    "Cannot convert the data into a data frame: If using all scalar values, you must pass an index"
  | .namedRows =>
    "Cannot convert the data into a data frame: Mixing dicts with non-Series may lead to " ++
      "ambiguous ordering."
  | .noRows => "No observations are left after removing missing values"
  | .notNumeric response => s!"The response '{response}' must be numeric"
  | .notFinite response => s!"The response '{response}' must be finite"
  | .fractional family response =>
    s!"Family '{family}' requires an integer response, but '{response}' has fractional values"
  | .negative family => s!"Family '{family}' requires a non-negative response"
  | .notBinary family => s!"Family '{family}' requires a response of 0s and 1s"
  | .trials name => s!"'{name}' must hold positive integers"
  | .outsideTrials name family =>
    s!"The response must lie between 0 and '{name}' for family '{family}'"
  | .knotsUnknown name => s!"Knots were given for '{name}', which is not in the formula"
  | .knotsNotFinite name => s!"Knots of '{name}' must be a non-empty set of finite values"
  | .covarianceUnknown name => s!"'cov_ranef' refers to '{name}', which is not a grouping factor"
  | .covarianceLevels name levels =>
    s!"Levels of '{name}' are missing in its covariance matrix: " ++ ", ".intercalate levels
  | .covarianceShape name count shape =>
    s!"The covariance matrix of '{name}' must be of shape ({count}, {count}), got {shape}"
  | .covarianceSymmetry name => s!"The covariance matrix of '{name}' must be symmetric"
  | .covarianceDefinite name => s!"The covariance matrix of '{name}' must be positive definite"

end Multilevel
