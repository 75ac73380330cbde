import Multilevel.Failure
import Multilevel.Number.Reader
import Multilevel.Text.Lower
import Multilevel.Value.Display

/-!
# Options of a session

A few settings hold for all runs of a session: the number of cores, and whether chains run as
futures. They start from the environment, are changed one at a time, and a run reads them once at
its start. A setting that is refused leaves the options as they were.
-/
namespace Multilevel

/-- The options of a session. At least one core is always available. -/
structure RunOptions where
  /-- The number of cores. -/
  cores : Int := 1
  /-- Whether chains run as futures. -/
  future : Bool := false
  /-- There is a core. -/
  cores_pos : 1 ≤ cores := by decide
  deriving Repr, DecidableEq

namespace RunOptions

/-- The names of the options. -/
inductive Name where
  | cores
  | future
  deriving Repr, DecidableEq

/-- The option of a name. -/
def Name.ofText? : String → Option Name
  | "cores" => some .cores
  | "future" => some .future
  | _ => none

/-- Refuses a value with an error that shows it; plainly, if the value has no displayed form. -/
def refuseShown {α : Type} (value : Value) (error : String → ConfigurationError) :
    Except Failure α :=
  if value.isDisplayable then refuse (error value.display) else refuse Fault.unconvertible

/-- The integer that a value counts as; a floating-point number loses its fraction. -/
def wholeOf (value : Value) : Except Failure Int :=
  match value with
  | .int n => return n
  | .bool b => return if b then 1 else 0
  | .float x =>
    if Number.isFinite x then return Number.truncate x
    else if x.isNaN then refuseShown value .cores
    else refuse Fault.overflow
  | .text s =>
    match Number.int? s with
    | some n => return n
    | none => refuseShown value .cores
  | _ => refuseShown value .cores

/-- The number of cores that a value gives. -/
def coresOf (value : Value) : Except Failure { n : Int // 1 ≤ n } := do
  let n ← wholeOf value
  if h : 1 ≤ n then return ⟨n, h⟩
  else refuseShown (.int n) (.atLeastOne "cores")

/-- The words that switch an option on. -/
def onWords : List String := ["1", "true", "yes", "on"]

/-- The words that switch an option off. -/
def offWords : List String := ["0", "false", "no", "off", ""]

/-- The choice about futures that a value gives. Blanks around a word and its case do not
matter. -/
def futureOf (value : Value) : Except Failure Bool :=
  match value with
  | .bool b => return b
  | .text s =>
    let word := Text.lower (Text.strip s)
    if onWords.contains word then return true
    else if offWords.contains word then return false
    else refuseShown value .future
  | _ => refuseShown value .future

/-- The options with another number of cores. -/
def withCores (options : RunOptions) (cores : { n : Int // 1 ≤ n }) : RunOptions :=
  ⟨cores.val, options.future, cores.property⟩

/-- The options after a change of one of them. -/
def set (options : RunOptions) (name : String) (value : Value) : Except Failure RunOptions :=
  match Name.ofText? name with
  | none => refuse (ConfigurationError.setUnknown name)
  | some .cores => do return options.withCores (← coresOf value)
  | some .future => do
    let future ← futureOf value
    return { options with future }

/-- The value of an option. -/
def get (options : RunOptions) (name : String) : Except ConfigurationError Value :=
  match Name.ofText? name with
  | none => .error (.getUnknown name)
  | some .cores => .ok (.int options.cores)
  | some .future => .ok (.bool options.future)

/-- The options that an environment asks for; a variable that is not there leaves the standard
value. -/
def ofEnvironment (cores future : Option String) : Except Failure RunOptions := do
  let cores ← coresOf (.text (cores.getD "1"))
  let future ← futureOf (.text (future.getD "false"))
  return ⟨cores.val, future, cores.property⟩

/-- The displayed form of the options. -/
def text (options : RunOptions) : String :=
  s!"RunOptions(cores={options.cores}, future=" ++ (Value.bool options.future).display ++ ")"

end RunOptions

end Multilevel
