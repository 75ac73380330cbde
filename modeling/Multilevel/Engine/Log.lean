/-!
# Log records of the engine

An engine writes records to a logger. A record that is at least as severe as the logger's
threshold goes to every handler of the logger that takes records of its severity, and to the
console if the logger propagates. A logger without a threshold of its own has that of the loggers
above it.

A capture collects the records that are written while it is open. A silent capture takes over the
logger: it is then the only handler, nothing reaches the console, and records from information on
are collected. Any other capture only listens. When a capture is closed, the logger gets back its
threshold, its choice about the console and the handlers that it lost.
-/
namespace Multilevel

/-- How severe a record is: the greater its rank, the more severe. -/
structure LogLevel where
  rank : Int
  deriving Repr, DecidableEq

namespace LogLevel

/-- The level of a logger or a handler that sets none. -/
def unset : LogLevel := ⟨0⟩

def debug : LogLevel := ⟨10⟩
def info : LogLevel := ⟨20⟩
def warning : LogLevel := ⟨30⟩
def error : LogLevel := ⟨40⟩
def critical : LogLevel := ⟨50⟩

instance : LE LogLevel := ⟨fun a b => a.rank ≤ b.rank⟩

instance (a b : LogLevel) : Decidable (a ≤ b) := inferInstanceAs (Decidable (a.rank ≤ b.rank))

/-- The levels that have a name. -/
def named : List (LogLevel × String) :=
  [(unset, "NOTSET"), (debug, "DEBUG"), (info, "INFO"), (warning, "WARNING"), (error, "ERROR"),
    (critical, "CRITICAL")]

/-- The name of a level. One without a name is called by its rank. -/
def name (level : LogLevel) : String := (named.lookup level).getD s!"Level {level.rank}"

/-- The level of a name. -/
def ofName? (text : String) : Option LogLevel :=
  (named.find? fun (_, name) => name == text).map Prod.fst

end LogLevel

/-- A record. -/
structure LogRecord where
  level : LogLevel
  text : String
  deriving Repr, DecidableEq

/-- The line that shows a record. -/
def LogRecord.line (r : LogRecord) : String := r.level.name ++ ": " ++ r.text

/-- A handler of records. -/
structure LogHandler where
  number : Nat
  /-- The least severe level that it takes. -/
  threshold : LogLevel := .unset
  deriving Repr, DecidableEq

/-- The handler of a capture. -/
def LogHandler.collector (number : Nat) : LogHandler := ⟨number, .debug⟩

/-- A logger. -/
structure Logger where
  /-- The least severe level that is not dropped, if it is set. -/
  threshold : LogLevel := .warning
  /-- The threshold of the loggers above, which counts if this one has none. -/
  above : LogLevel := .warning
  /-- Whether records reach the console. -/
  propagates : Bool := true
  handlers : List LogHandler := []
  deriving Repr, DecidableEq

/-- Whether a logger drops no record of a level. Records without a level are always dropped. -/
def Logger.admits (logger : Logger) (level : LogLevel) : Bool :=
  !level ≤ LogLevel.unset &&
    (if logger.threshold = .unset then logger.above else logger.threshold) ≤ level

/-- Where a record arrives. -/
inductive LogTarget where
  | console
  | handler (number : Nat)
  deriving Repr, DecidableEq

/-- A logger with all that it has delivered. -/
structure LogState where
  logger : Logger := {}
  /-- The records delivered, in order, each with the place where it arrived. -/
  deliveries : List (LogTarget × LogRecord) := []
  /-- A number above those of all handlers. -/
  fresh : Nat := 0
  deriving Repr, DecidableEq

/-- An open capture. -/
structure Capture where
  /-- Whether it keeps records off the console. -/
  silent : Bool
  /-- The logger as it was before. -/
  saved : Logger
  /-- The number of its own handler. -/
  handler : Nat
  deriving Repr, DecidableEq

namespace LogState

/-- The places where a record arrives. -/
def targets (logger : Logger) (r : LogRecord) : List LogTarget :=
  if logger.admits r.level then
    ((logger.handlers.filter fun h => h.threshold ≤ r.level).map fun h => .handler h.number) ++
      (if logger.propagates then [.console] else [])
  else []

/-- The state after a record is written. -/
def write (s : LogState) (r : LogRecord) : LogState :=
  { s with deliveries := s.deliveries ++ (targets s.logger r).map fun target => (target, r) }

/-- The state after records are written in order. -/
def writeAll (s : LogState) (records : List LogRecord) : LogState := records.foldl write s

/-- The records that arrived at a place, in order. -/
def arrived (s : LogState) (target : LogTarget) : List LogRecord :=
  (s.deliveries.filter fun (place, _) => place == target).map Prod.snd

/-- The logger while a capture is open. -/
def captured (logger : Logger) (silent : Bool) (handler : Nat) : Logger :=
  if silent then
    { logger with threshold := .info, propagates := false, handlers := [.collector handler] }
  else { logger with handlers := logger.handlers ++ [.collector handler] }

/-- Opens a capture. -/
def openCapture (s : LogState) (silent : Bool) : Capture × LogState :=
  (⟨silent, s.logger, s.fresh⟩,
    { s with logger := captured s.logger silent s.fresh, fresh := s.fresh + 1 })

/-- Handlers with those of a list that are missing added at the end. -/
def addMissing (handlers more : List LogHandler) : List LogHandler :=
  more.foldl (fun all h => if all.contains h then all else all ++ [h]) handlers

/-- The logger after a capture is closed. -/
def released (logger : Logger) (c : Capture) : Logger :=
  { logger with
    threshold := c.saved.threshold
    propagates := c.saved.propagates
    handlers := addMissing (logger.handlers.filter fun h => h.number != c.handler)
      c.saved.handlers }

/-- Closes a capture. -/
def closeCapture (s : LogState) (c : Capture) : LogState :=
  { s with logger := released s.logger c }

/-- The lines that a capture collected. -/
def messages (s : LogState) (c : Capture) : List String :=
  (s.arrived (.handler c.handler)).map LogRecord.line

end LogState

end Multilevel
