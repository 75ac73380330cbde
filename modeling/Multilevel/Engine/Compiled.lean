import Multilevel.Digest.Identity
import Multilevel.Engine.Basic

/-!
# Compiled models

A program is built with the options of the user, completed by standard ones. The program and the
options that matter to the executable have one identity, from which the names of the files are
made: an executable that was built from the same program with the same options is found again by
its name. Whether building is forced and how the model is called do not matter.
-/
namespace Multilevel

/-- The options that a program is built with. -/
structure BuildOptions where
  /-- The options of the program's translator. -/
  translator : Settings
  /-- The options of the compiler. -/
  compiler : Settings
  /-- The header of the user. -/
  header : Value
  /-- Whether an executable that exists is not reused. -/
  force : Bool
  /-- How the names of the files start. -/
  modelName : Value
  deriving Repr

namespace BuildOptions

/-- The names of the options. -/
def names : List String :=
  ["stanc_options", "cpp_options", "user_header", "force_compile", "model_name"]

/-- The options of the translator unless others are asked for. -/
def standardTranslator : Settings := [("O1", .bool true)]

/-- The key that a value is. -/
def keyOf : Value → Except Fault String
  | .text s => .ok s
  | .list _ | .record _ => .error .unsupported
  | value => .ok value.canonical

/-- The key and the entry that an item of a list is: it must have two parts. -/
def entryOf : Value → Except Fault (String × Value)
  | .list [key, value] => return (← keyOf key, value)
  | .text s =>
    match s.toList with
    | [a, b] => .ok (String.ofList [a], .text (String.ofList [b]))
    | _ => .error .unconvertible
  | .record [(a, _), (b, _)] => .ok (a, .text b)
  | .list _ | .record _ => .error .unconvertible
  | _ => .error .unsupported

/-- The settings that a value is: a record, or a list of entries. -/
def settingsOf : Value → Except Fault Settings
  | .record fields => .ok fields
  | .list items => return Entries.putAll [] (← items.mapM entryOf)
  | .text _ => .error .unconvertible
  | _ => .error .unsupported

/-- The settings under a name, or the standard ones if there are none. -/
def settingsAt (options : Settings) (name : String) (standard : Settings) :
    Except Fault Settings :=
  match options.lookup name with
  | some value => if value.truthy then settingsOf value else .ok standard
  | none => .ok standard

/-- The options that a user gives, completed. -/
def ofSettings (options : Settings) : Except Failure BuildOptions := do
  let unknown := ((options.map Prod.fst).filter fun name => !names.contains name).mergeSort
  if !unknown.isEmpty then refuse (ConfigurationError.unknownBuilderOptions unknown)
  let translator ← (settingsAt options "stanc_options" standardTranslator : Except Fault _)
  let compiler ← (settingsAt options "cpp_options" [] : Except Fault _)
  return {
    translator, compiler
    header := (options.lookup "user_header").getD .null
    force := (options.lookup "force_compile").any Value.truthy
    modelName := (options.lookup "model_name").getD (.text "model") }

/-- All options under their names. -/
def settings (o : BuildOptions) : Settings :=
  [("stanc_options", .record o.translator), ("cpp_options", .record o.compiler),
    ("user_header", o.header), ("force_compile", .bool o.force), ("model_name", o.modelName)]

/-- The options that matter to the executable. -/
def effective (o : BuildOptions) : Settings :=
  [("stanc_options", .record o.translator), ("cpp_options", .record o.compiler),
    ("user_header", o.header)]

/-- The identity of a program built with the options. -/
def identity (o : BuildOptions) (source : String) : String := Digest.identity source o.effective

/-- How many characters of the identity the names of the files hold. -/
def identityPrefixLength : Nat := 12

/-- The common name of the files for an identity. -/
def stem (o : BuildOptions) (identity : String) : String :=
  o.modelName.level ++ "_" ++ String.ofList (identity.toList.take identityPrefixLength)

end BuildOptions

/-- A program that was built. -/
structure CompiledModel where
  /-- The identity of the program and its options. -/
  identity : String
  /-- The text of the program. -/
  source : String
  programFile : String
  executableFile : String
  /-- The messages of the engine, one a line. -/
  diagnostics : List String
  options : BuildOptions
  /-- The executable, unless the model was stored. -/
  handle : Option Executable
  deriving Repr

namespace CompiledModel

/-- Whether two models were built from the same program with the same options. -/
def same (a b : CompiledModel) : Bool := a.identity == b.identity

/-- The model as it is stored: without its executable. -/
def stored (c : CompiledModel) : CompiledModel := { c with handle := none }

end CompiledModel

end Multilevel
