import Multilevel.Data.Error
import Multilevel.Draws.Error
import Multilevel.Engine.Error
import Multilevel.Family.Basic
import Multilevel.Formula.Error
import Multilevel.Inits.Error
import Multilevel.Model.Error
import Multilevel.Prior.Error
import Multilevel.Run.Error

/-!
# Failures and warnings

A computation of the library ends with a value or with a failure, and issues warnings on the way,
which stay beside a failure as well. A failure is one of the library's own, which has a message,
or a fault: the plain refusal of an argument that is not of the kind asked for.
-/
namespace Multilevel

/-- A refusal that carries no message of the library. -/
inductive Fault where
  /-- An argument is not of the kind that is asked for. -/
  | mistyped
  /-- An operation does not apply to a value of this kind. -/
  | unsupported
  /-- A key or a column does not exist. -/
  | unknownKey
  /-- A value cannot be converted. -/
  | unconvertible
  /-- A position lies beyond the end. -/
  | outOfBounds
  /-- The labels of a dimension are not as many as its places. -/
  | mislabelled
  /-- Arrays disagree about the size of a dimension. -/
  | misaligned
  /-- A number is too large. -/
  | overflow
  /-- A file does not exist. -/
  | missingFile
  /-- The folder of a table that is to be written does not exist. -/
  | missingFolder
  /-- There is a file where a folder is to be made. -/
  | fileInPlace
  /-- A file stands where a path leads through a folder. -/
  | notFolder
  /-- A folder stands where a file is asked for. -/
  | isFolder
  /-- A table has no columns. -/
  | emptyTable
  /-- A row of a table has more cells than the table has columns. -/
  | malformedTable
  /-- A name stands for no attribute of its object. -/
  | unknownAttribute
  /-- Nothing was stored under a name. -/
  | notStored
  deriving Repr, DecidableEq

/-- The text that describes a refusal. -/
def Fault.text : Fault → String
  | mistyped => "an argument is not of the kind asked for"
  | unsupported => "a value does not support what is done with it"
  | unknownKey => "a column or key does not exist"
  | unconvertible => "a value cannot be converted"
  | outOfBounds => "a position lies beyond the end"
  | mislabelled => "a dimension has labels that do not suit it"
  | misaligned => "arrays disagree about the size of a dimension"
  | overflow => "a number is too large"
  | missingFile => "a file does not exist"
  | missingFolder => "a folder does not exist"
  | fileInPlace => "a file stands where a folder is to be made"
  | notFolder => "a path leads through a file"
  | isFolder => "a folder stands where a file is asked for"
  | emptyTable => "a table has no columns"
  | malformedTable => "a row has more cells than the table has columns"
  | unknownAttribute => "an attribute does not exist"
  | notStored => "nothing is stored under a name"

/-- What ends a computation without a value. -/
inductive Failure where
  | specification (e : SpecificationError)
  | formula (e : FormulaError)
  | family (e : FamilyError)
  | prior (e : PriorError)
  | data (e : DataError)
  | init (e : InitError)
  | configuration (e : ConfigurationError)
  | build (e : BuildError)
  | chain (e : ChainError)
  | merge (e : MergeError)
  /-- A failure of the engine that reaches the caller as it is. -/
  | engine (e : EngineError)
  | fault (fault : Fault)
  deriving Repr, DecidableEq

namespace Failure

/-- The message of a failure; refusals and failures of the engine have none. -/
def message? : Failure → Option String
  | specification e => some e.message
  | formula e => some e.message
  | family e => some e.message
  | prior e => some e.message
  | data e => some e.message
  | init e => some e.message
  | configuration e => some e.message
  | build e => some e.message
  | chain e => some e.message
  | merge e => some e.message
  | engine _ => none
  | fault _ => none

/-- The name of the kind of a failure; a refusal has none. -/
def kind? : Failure → Option String
  | specification _ => some "SpecificationError"
  | formula _ => some "FormulaError"
  | family _ => some "FamilyError"
  | prior _ => some "PriorError"
  | data _ => some "DataError"
  | init _ => some "InitError"
  | configuration _ => some "ConfigurationError"
  | build _ => some "BuildError"
  | chain _ => some "ChainExecutionError"
  | merge _ => some "MergeError"
  | engine e => some e.kind.name
  | fault _ => none

/-- The text that tells of a failure. -/
def text (e : Failure) : String :=
  match e with
  | engine e => e.text
  | fault f => f.text
  | e => (e.message?).getD ""

/-- Whether a failure says that the specification of the model is invalid. -/
def isSpecification : Failure → Bool
  | specification _ | formula _ | family _ | prior _ | data _ | init _ => true
  | _ => false

end Failure

/-- A warning. -/
inductive Warning where
  /-- Rows with missing values were dropped. -/
  | droppedRows (count : Nat)
  /-- Functions were given by the old argument. -/
  | functionsArgument
  /-- Executables were asked to be dropped by the old argument. -/
  | discardArgument
  /-- A variational run was given a number of chains. -/
  | chainsIgnored
  /-- A run with futures was given a number of cores. -/
  | coresIgnored
  /-- A stored fit cannot be read. -/
  | unreadable (path : String)
  /-- A stored value is no fit. -/
  | notFit (path kind : String)
  deriving Repr, DecidableEq

namespace Warning

/-- Whether a warning announces the end of an argument. -/
def isDeprecation : Warning → Bool
  | functionsArgument | discardArgument => true
  | _ => false

/-- The text of a warning. -/
def message : Warning → String
  | droppedRows count => s!"Rows containing NAs were excluded from the model: {count}"
  | functionsArgument =>
    "Argument 'stan_funs' is deprecated. Please use argument 'stanvars' instead."
  | discardArgument =>
    "Argument 'save_dso' is deprecated. The executable is built in a temporary directory and " ++
      "removed with the model."
  | chainsIgnored =>
    "Variational inference runs as a single job. Argument 'chains' is ignored."
  | coresIgnored => "Argument 'cores' is ignored when using futures."
  | unreadable path => s!"Could not read the fit stored in '{path}' (...). Refitting."
  | notFit path kind => s!"'{path}' does not hold a fit (found {kind}). Refitting."

end Warning

/-- The outcome of a computation with the warnings that it issued. -/
structure Reported (α : Type) where
  /-- The warnings in the order issued. -/
  warnings : List Warning
  /-- The value or the failure. -/
  outcome : Except Failure α

namespace Reported

variable {α β : Type}

/-- A computation that issues no warning and ends with a value. -/
protected def pure (a : α) : Reported α := ⟨[], .ok a⟩

/-- Two computations in order: the second one starts only from a value of the first. -/
protected def bind (first : Reported α) (second : α → Reported β) : Reported β :=
  match first.outcome with
  | .ok a => ⟨first.warnings ++ (second a).warnings, (second a).outcome⟩
  | .error e => ⟨first.warnings, .error e⟩

instance : Monad Reported where
  pure := Reported.pure
  bind := Reported.bind

instance : LawfulMonad Reported := LawfulMonad.mk' _
  (fun x => by
    cases x with | mk warnings outcome =>
      cases outcome <;> simp [Functor.map, Reported.bind, Reported.pure])
  (fun a f => by simp [bind, pure, Reported.bind, Reported.pure])
  (fun x f g => by
    cases x with | mk warnings outcome =>
      cases outcome with
      | error e => simp [bind, Reported.bind]
      | ok a =>
        cases h : (f a).outcome <;> simp [bind, Reported.bind, h])

/-- A computation that fails. -/
def fail (e : Failure) : Reported α := ⟨[], .error e⟩

/-- A computation that issues one warning. -/
def warn (warning : Warning) : Reported Unit := ⟨[warning], .ok ()⟩

/-- A computation that issues no warnings. -/
def ofExcept (outcome : Except Failure α) : Reported α := ⟨[], outcome⟩

instance : MonadExceptOf Failure Reported where
  throw := fail
  tryCatch x handle :=
    match x.outcome with
    | .ok _ => x
    | .error e => ⟨x.warnings ++ (handle e).warnings, (handle e).outcome⟩

end Reported

/-- The failures that a kind of error is one of. -/
class IsFailure (ε : Type) where
  /-- The failure of an error. -/
  toFailure : ε → Failure

instance : IsFailure Failure := ⟨id⟩
instance : IsFailure SpecificationError := ⟨.specification⟩
instance : IsFailure FormulaError := ⟨.formula⟩
instance : IsFailure FamilyError := ⟨.family⟩
instance : IsFailure PriorError := ⟨.prior⟩
instance : IsFailure DataError := ⟨.data⟩
instance : IsFailure InitError := ⟨.init⟩
instance : IsFailure ConfigurationError := ⟨.configuration⟩
instance : IsFailure BuildError := ⟨.build⟩
instance : IsFailure ChainError := ⟨.chain⟩
instance : IsFailure MergeError := ⟨.merge⟩
instance : IsFailure EngineError := ⟨.engine⟩
instance : IsFailure Fault := ⟨.fault⟩

/-- Stops with an error of any kind. -/
def refuse {ε α : Type} {m : Type → Type} [IsFailure ε] [MonadExcept Failure m] (e : ε) : m α :=
  throw (IsFailure.toFailure e)

instance {ε : Type} [IsFailure ε] : MonadLiftT (Except ε) Reported where
  monadLift x := ⟨[], x.mapError IsFailure.toFailure⟩

instance (priority := low) {ε : Type} [IsFailure ε] : MonadLiftT (Except ε) (Except Failure) where
  monadLift x := x.mapError IsFailure.toFailure

end Multilevel
