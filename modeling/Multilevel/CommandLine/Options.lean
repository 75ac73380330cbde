import Multilevel.Number.Reader
import Multilevel.Text.Quoted
import Multilevel.Text.Search

/-!
# Options of a command line

A command line is a list of words. A word is first told apart by its form: an option, an option
that does not exist, or a plain word. The start of a long option stands for it if no other option
starts in the same way, and a value may follow an option after an equals sign. Then the options
take their values, and what is left over is refused.
-/
namespace Multilevel

/-- What an option takes. -/
inductive OptionKind where
  /-- Nothing: it asks for help. -/
  | help
  /-- Nothing: it is given or not. -/
  | flag
  /-- A text. -/
  | text
  /-- An integer. -/
  | whole
  /-- One of some texts. -/
  | choice (values : List String)
  deriving Repr, DecidableEq

/-- An option of a command line. -/
structure CommandOption where
  /-- Its names, the short one first. -/
  names : List String
  kind : OptionKind
  /-- Whether it has to be given. -/
  required : Bool := false
  deriving Repr, DecidableEq

namespace CommandOption

/-- The name that messages give an option. -/
def title (o : CommandOption) : String := "/".intercalate o.names

/-- How an option is used. -/
def usage (o : CommandOption) : String :=
  let shown := o.names.headD "" ++ (match o.kind with
    | .help | .flag => ""
    | .text => " TEXT"
    | .whole => " N"
    | .choice values => " \x7b" ++ ",".intercalate values ++ "\x7d")
  if o.required then shown else "[" ++ shown ++ "]"

/-- Whether an option takes a value. -/
def takesValue (o : CommandOption) : Bool := o.kind != .help && o.kind != .flag

end CommandOption

/-- A mistake in a command line. -/
inductive UsageError where
  | ambiguous (word : String) (names : List String)
  | noValue (title : String)
  | surplusValue (title value : String)
  | notWhole (title value : String)
  | notChoice (title value : String) (values : List String)
  | missing (titles : List String)
  | unknown (words : List String)
  deriving Repr, DecidableEq

/-- The text that reports a mistake. -/
def UsageError.message : UsageError → String
  | ambiguous word names =>
    s!"ambiguous option: {word} could match " ++ ", ".intercalate names
  | noValue title => s!"argument {title}: expected one argument"
  | surplusValue title value =>
    s!"argument {title}: ignored explicit argument " ++ Text.quoted value
  | notWhole title value => s!"argument {title}: invalid int value: " ++ Text.quoted value
  | notChoice title value values =>
    s!"argument {title}: invalid choice: " ++ Text.quoted value ++ " (choose from " ++
      ", ".intercalate (values.map Text.quoted) ++ ")"
  | missing titles => "the following arguments are required: " ++ ", ".intercalate titles
  | unknown words => "unrecognized arguments: " ++ " ".intercalate words

/-- How the reading of a command line ends early. -/
inductive CommandStop where
  /-- Help was asked for. -/
  | help
  | wrong (e : UsageError)
  deriving Repr, DecidableEq

/-- A word told apart by its form. -/
inductive CommandToken where
  /-- An option, and the value that the word gives it, which either follows an equals sign or is
  joined to a short name. -/
  | known (o : CommandOption) (joined : Bool) (value : Option String)
  /-- A word with the form of an option that does not exist. -/
  | strange (word : String)
  | plain (word : String)
  deriving Repr, DecidableEq

namespace CommandToken

/-- The option of a name. -/
def named? (options : List CommandOption) (name : String) : Option CommandOption :=
  options.find? fun o => o.names.contains name

/-- A word divided at its first equals sign. -/
def divided (word : String) : String × Option String :=
  let chars := word.toList
  let name := String.ofList (chars.takeWhile (· ≠ '='))
  match chars.dropWhile (· ≠ '=') with
  | [] => (name, none)
  | _ :: value => (name, some (String.ofList value))

/-- Whether a text starts with another one. -/
def startsWith (text start : String) : Bool := (Text.after? start.toList text.toList).isSome

/-- The options that a word may start, each with the name meant and the value that the word gives
it. A short option may be followed by its value. -/
def started (options : List CommandOption) (word : String) :
    List (CommandOption × String × Option String) :=
  let names := options.flatMap fun o => o.names.map fun name => (o, name)
  match word.toList with
  | '-' :: '-' :: _ =>
    let (start, value) := divided word
    names.filterMap fun (o, name) => if startsWith name start then some (o, name, value) else none
  | '-' :: short :: value =>
    names.filterMap fun (o, name) =>
      if name = String.ofList ['-', short] then some (o, name, some (String.ofList value))
      else if startsWith name word then some (o, name, none)
      else none
  | _ => []

/-- Whether a word is a negative number, a line end at its end left aside. -/
def isNegative (word : String) : Bool :=
  let isDigit (c : Char) : Bool := (Text.digitValue? c).isSome
  let chars := word.toList
  match if chars.getLast? = some '\n' then chars.dropLast else chars with
  | '-' :: rest =>
    let whole := rest.takeWhile isDigit
    match rest.dropWhile isDigit with
    | [] => !whole.isEmpty
    | '.' :: places => !places.isEmpty && places.all isDigit
    | _ => false
  | _ => false

/-- A word told apart by its form. -/
def ofWord (options : List CommandOption) (word : String) : Except UsageError CommandToken :=
  if !startsWith word "-" || word = "-" then .ok (.plain word)
  else
    let (name, value) := divided word
    match named? options word, named? options name, started options word with
    | some o, _, _ => .ok (.known o false none)
    | none, some o, _ => .ok (.known o false value)
    | none, none, [(o, _, value)] => .ok (.known o (!startsWith word "--") value)
    | none, none, [] =>
      if isNegative word || word.toList.contains ' ' then .ok (.plain word)
      else .ok (.strange word)
    | none, none, several => .error (.ambiguous word (several.map fun (_, name, _) => name))

/-- The words of a command line told apart by their form. After two dashes all words are plain. -/
def ofWords (options : List CommandOption) : List String → Except UsageError (List CommandToken)
  | [] => .ok []
  | "--" :: rest => .ok (.strange "--" :: rest.map .plain)
  | word :: rest => do return (← ofWord options word) :: (← ofWords options rest)

end CommandToken

/-- The values that options were given, and the words left over. -/
structure CommandValues where
  /-- The values under the titles of their options. A flag that is given has an empty value. -/
  values : List (String × String) := []
  /-- The words left over. -/
  rest : List String := []
  deriving Repr, DecidableEq

namespace CommandValues

/-- The text that an option was given. -/
def text? (v : CommandValues) (title : String) : Option String := v.values.lookup title

/-- The integer that an option was given. -/
def whole? (v : CommandValues) (title : String) : Option Int := (v.text? title).bind Number.int?

/-- Whether an option was given. -/
def has (v : CommandValues) (title : String) : Bool := (v.text? title).isSome

/-- Refuses a value that an option cannot take. -/
def checkValue (o : CommandOption) (value : String) : Except UsageError Unit :=
  match o.kind with
  | .whole => if (Number.int? value).isSome then .ok () else .error (.notWhole o.title value)
  | .choice values =>
    if values.contains value then .ok () else .error (.notChoice o.title value values)
  | _ => .ok ()

/-- The values after an option took one. The last value given counts. -/
def give (v : CommandValues) (o : CommandOption) (value : String) :
    Except CommandStop CommandValues :=
  match checkValue o value with
  | .ok () => .ok { v with values := (o.title, value) :: v.values }
  | .error e => .error (.wrong e)

/-- What comes of letters joined to the short name that asks for help: they stand for more short
names, of which there is only this one, and any other letter is left over. -/
def joinedToHelp (title : String) : List Char → CommandStop
  | '-' :: rest => .wrong (.surplusValue title (String.ofList ('-' :: rest)))
  | 'h' :: '=' :: rest => .wrong (.surplusValue title (String.ofList rest))
  | 'h' :: rest => joinedToHelp title rest
  | _ => .help

/-- What comes of a value given to an option that takes none. -/
def surplus (o : CommandOption) (joined : Bool) (value : String) : CommandStop :=
  if joined then joinedToHelp o.title value.toList else .wrong (.surplusValue o.title value)

/-- Lets the options take their values from the words that follow them. -/
def take (v : CommandValues) : List CommandToken → Except CommandStop CommandValues
  | [] => .ok v
  | .plain word :: rest | .strange word :: rest => take { v with rest := v.rest ++ [word] } rest
  | .known o joined value :: rest =>
    match o.takesValue, value, rest with
    | false, some value, _ => .error (surplus o joined value)
    | false, none, rest =>
      if o.kind = .help then .error .help
      else take { v with values := (o.title, "") :: v.values } rest
    | true, some value, rest => do take (← give v o value) rest
    | true, none, .plain word :: rest => do take (← give v o word) rest
    | true, none, _ => .error (.wrong (.noValue o.title))

/-- Refuses values that lack a required option, and words left over. -/
def complete (options : List CommandOption) (v : CommandValues) : Except UsageError CommandValues :=
  let missing := (options.filter fun o => o.required && !v.has o.title).map CommandOption.title
  if !missing.isEmpty then .error (.missing missing)
  else if !v.rest.isEmpty then .error (.unknown v.rest)
  else .ok v

/-- Reads a command line. -/
def read (options : List CommandOption) (words : List String) : Except CommandStop CommandValues := do
  let tokens ← (CommandToken.ofWords options words).mapError .wrong
  let values ← take {} tokens
  (complete options values).mapError .wrong

end CommandValues

end Multilevel
