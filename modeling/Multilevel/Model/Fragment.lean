import Multilevel.Failure
import Multilevel.Value.Arrays

/-!
# Code fragments of the user

A fragment is code that goes to the end of one block of the program. A fragment of the data block
may carry a value, which joins the data of the model under the fragment's name. A collection
keeps its fragments in order and gives no name twice.
-/
namespace Multilevel

/-- A block of the program that fragments can go to. -/
inductive Block where
  | functions
  | data
  | transformedData
  | parameters
  | transformedParameters
  | model
  | generatedQuantities
  deriving Repr, DecidableEq, Inhabited

namespace Block

/-- All blocks in the order of the program. -/
def all : List Block :=
  [functions, data, transformedData, parameters, transformedParameters, model, generatedQuantities]

/-- The name by which a fragment refers to a block. -/
def name : Block → String
  | functions => "functions"
  | data => "data"
  | transformedData => "tdata"
  | parameters => "parameters"
  | transformedParameters => "tparameters"
  | model => "model"
  | generatedQuantities => "genquant"

/-- The block of a name. -/
def ofName? (name : String) : Option Block := all.find? fun block => block.name == name

end Block

/-- A code fragment. -/
structure Fragment where
  /-- The code. -/
  code : String
  /-- The block that the code goes to. -/
  block : Block
  /-- The name of the variable that holds the value. -/
  name : Option String
  /-- The value, if any. -/
  value : Value
  deriving Repr

namespace Fragment

/-- Whether a fragment carries a value. -/
def hasValue (fragment : Fragment) : Bool :=
  match fragment.value with
  | .null => false
  | _ => true

/-- The name of a fragment, unless it is empty. -/
def label? (fragment : Fragment) : Option String := fragment.name.filter fun name => !name.isEmpty

/-- A fragment for the block of a name. Only the data block takes values, and only under a name. -/
def make (code blockName : String) (name : Option String) (value : Value) :
    Except SpecificationError Fragment := do
  let some block := Block.ofName? blockName | throw (.unknownBlock blockName)
  let fragment : Fragment := ⟨code, block, name, value⟩
  if fragment.hasValue then
    if block ≠ .data then throw .valueBlock
    if fragment.label?.isNone then throw .valueName
  return fragment

/-- The declaration of a variable that can hold a value: an integer or a real number for a single
one, an array of integers or a vector for several. -/
def declaration (value : Value) (name : Option String) : Except Failure String := do
  let some name := name.filter fun name => !name.isEmpty | refuse SpecificationError.noCode
  let ofLength (length : Nat) (integers : Bool) : String :=
    if integers then s!"array[{length}] int {name};" else s!"vector[{length}] {name};"
  match value with
  | .null => refuse SpecificationError.noCode
  | .bool _ | .int _ => return s!"int {name};"
  | .float _ => return s!"real {name};"
  | .text s => return ofLength s.length s.isEmpty
  | .list items => return ofLength items.length (items.all fun item => match item with
      | .int _ => true
      | _ => false)
  | .record fields => return ofLength fields.length fields.isEmpty
  | .function .. => refuse Fault.unsupported

/-- A fragment as a caller describes it. Without code, the declaration of the value is the code. -/
def describe (value : Value) (name : Option String) (code : Option String) (blockName : String) :
    Except Failure Fragment := do
  let code ← match code with
    | some code => pure code
    | none => declaration value name
  make code blockName name value

end Fragment

/-- A collection of fragments. -/
structure Fragments where
  /-- The fragments in order. -/
  items : List Fragment
  /-- No name is given twice. -/
  distinct : (items.filterMap Fragment.label?).Nodup

namespace Fragments

/-- The collection without fragments. -/
def empty : Fragments := ⟨[], List.nodup_nil⟩

/-- A collection of the given fragments, if no name is given twice. -/
def ofList (items : List Fragment) : Except SpecificationError Fragments :=
  if distinct : (items.filterMap Fragment.label?).Nodup then .ok ⟨items, distinct⟩
  else .error .duplicatedNames

/-- The fragments of two collections, those of the first one before those of the second. -/
def append (first second : Fragments) : Except SpecificationError Fragments :=
  ofList (first.items ++ second.items)

/-- The fragments of a collection, and another one at the end. -/
def add (fragments : Fragments) (fragment : Fragment) : Except SpecificationError Fragments :=
  ofList (fragments.items ++ [fragment])

/-- The code of all fragments that go to a block, one after the other. -/
def code (fragments : Fragments) (block : Block) : String :=
  "\n".intercalate ((fragments.items.filter fun f => f.block = block).map Fragment.code)

/-- The values of fragments under their names. -/
def data (fragments : Fragments) : List (String × Value) :=
  fragments.items.filterMap fun f =>
    if f.block = .data && f.hasValue then f.label?.map fun name => (name, f.value) else none

/-- The names of the fragments that have one. -/
def names (fragments : Fragments) : List String := fragments.items.filterMap Fragment.label?

/-- Whether two lists of fragments agree in code, blocks, names and values. -/
def sameItems : List Fragment → List Fragment → Except Fault Bool
  | a :: as, b :: bs => do
    if a.code == b.code && a.block == b.block && a.name == b.name then
      if ← a.value.sameArray b.value then sameItems as bs else return false
    else return false
  | _, _ => return true

/-- Whether two collections hold the same fragments in the same order. -/
def same (a b : Fragments) : Except Fault Bool :=
  if a.items.length ≠ b.items.length then .ok false else sameItems a.items b.items

/-- The collection that a caller gives, and the functions given by the old argument at its end. -/
def collect (given : Option Fragments) (functions : Option String) : Reported Fragments := do
  let collection := given.getD empty
  match functions with
  | none => return collection
  | some code =>
    Reported.warn .functionsArgument
    collection.add ⟨code, .functions, none, .null⟩

end Fragments

end Multilevel
