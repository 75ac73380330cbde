import Multilevel.Text.Quoted

/-!
# Faults of the engine

What an engine reports when it fails, and how a failure reaches the caller. Failures of a value,
of a run or of a file are wrapped: a failed build shows the compiler's messages, a failed chain
its number. Every other failure reaches the caller as it is, but for chains that run as futures,
where all are wrapped.
-/
namespace Multilevel

/-- The kind of an engine's failure, by the name that it goes by. -/
structure EngineErrorKind where
  /-- The name of the kind. -/
  name : String
  /-- Whether builds and batches wrap failures of this kind. -/
  wrapped : Bool
  /-- Whether the message is shown in quotes. -/
  quotesMessage : Bool
  deriving Repr, DecidableEq

/-- A failure of an engine. -/
structure EngineError where
  /-- Its kind. -/
  kind : EngineErrorKind
  /-- The message that the engine gave. -/
  message : String
  deriving Repr, DecidableEq

/-- The text of a failure, as other messages contain it. -/
def EngineError.text (e : EngineError) : String :=
  if e.kind.quotesMessage then Text.quoted e.message else e.message

/-- What went wrong in a build. -/
structure BuildError where
  /-- Whether a program was rebuilt for a stored model. -/
  reloading : Bool
  /-- What the engine said. -/
  reason : String
  /-- The compiler's messages, one a line. -/
  diagnostics : String
  deriving Repr, DecidableEq

/-- The text that reports a failed build. -/
def BuildError.message (e : BuildError) : String :=
  let start := if e.reloading then "Reloading the Stan program failed: "
    else "Compilation of the Stan program failed: "
  start ++ e.reason ++ (if e.diagnostics.isEmpty then "" else "\n" ++ e.diagnostics)

/-- Which part of a run failed. -/
inductive RunPart where
  | batch
  | chain (number : Int)
  | variational
  deriving Repr, DecidableEq

/-- Why a part of a run failed. -/
inductive ChainCause where
  /-- The engine failed. -/
  | engine (e : EngineError)
  /-- The engine returned without the draws of a chain. -/
  | absent (number : Int)
  /-- A further setting has the name of a setting that the run itself makes. -/
  | repeated (setting : String)
  deriving Repr, DecidableEq

/-- The text that reports a cause. -/
def ChainCause.reason : ChainCause → String
  | engine e => e.text
  | absent number => Text.quoted s!"Chain {number} is not part of these draws"
  | repeated setting => s!"sample() got multiple values for keyword argument '{setting}'"

/-- What went wrong in a run. -/
structure ChainError where
  /-- The part that failed. -/
  part : RunPart
  cause : ChainCause
  deriving Repr, DecidableEq

/-- The text that reports a failed run. -/
def ChainError.message (e : ChainError) : String :=
  (match e.part with
    | .batch => "Sampling failed: "
    | .chain number => s!"Chain {number} failed: "
    | .variational => "Variational inference failed: ") ++ e.cause.reason

end Multilevel
