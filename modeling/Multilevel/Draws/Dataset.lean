import Multilevel.Entries
import Multilevel.Failure
import Multilevel.Value.Basic

/-!
# Named arrays of draws

Draws are arrays whose dimensions have names. A dataset holds several of them under the names of
the variables drawn, and labels for the places along some dimensions. Values lie in row order: the
last dimension runs fastest.
-/
namespace Multilevel

/-- The dimension of the chains. -/
def chainDim : String := "chain"

/-- The dimension of the draws of a chain. -/
def drawDim : String := "draw"

/-- Dimensions with their sizes. -/
abbrev Dims := List (String × Nat)

namespace Dims

/-- The number of places. -/
def size (dims : Dims) : Nat := (dims.map Prod.snd).foldr (· * ·) 1

/-- The position of a place in row order, for a place along each dimension. -/
def offset (dims : Dims) (place : String → Nat) : Nat :=
  dims.foldl (fun position (name, count) => position * count + place name) 0

/-- All places in row order: one place along each dimension. -/
def places : Dims → List (List Nat)
  | [] => [[]]
  | (_, count) :: rest => (List.range count).flatMap fun k => (places rest).map (k :: ·)

/-- The position along a named dimension, for the positions along all of them. -/
def along (dims : Dims) (positions : List Nat) (name : String) : Nat :=
  (((dims.map Prod.fst).zip positions).lookup name).getD 0

/-- The dimensions of chains and draws, in this order. -/
def sample (dims : Dims) : Dims :=
  [(chainDim, (dims.lookup chainDim).getD 0), (drawDim, (dims.lookup drawDim).getD 0)]

/-- The dimensions besides those of chains and draws. -/
def extra (dims : Dims) : Dims :=
  dims.filter fun (name, _) => name != chainDim && name != drawDim

/-- The dimensions before one of them, its size, and the dimensions after it. -/
def split? (dims : Dims) (name : String) : Option (Dims × Nat × Dims) :=
  match dims with
  | [] => none
  | (other, count) :: rest =>
    if other = name then some ([], count, rest)
    else (split? rest name).map fun (before, found, after) =>
      ((other, count) :: before, found, after)

end Dims

/-- An array with named dimensions. -/
structure DrawArray (α : Type) where
  dims : Dims
  /-- The values in row order. -/
  values : Array α
  deriving Repr, DecidableEq

namespace DrawArray

variable {α : Type}

/-- The value at a place. -/
def get? (a : DrawArray α) (place : String → Nat) : Option α := a.values[a.dims.offset place]?

/-- The array with its dimensions in another order. -/
def transpose (a : DrawArray α) (order : Dims) : DrawArray α :=
  ⟨order, ((Dims.places order).filterMap fun positions => a.get? (order.along positions)).toArray⟩

/-- The array at one place along a dimension, which it loses. -/
def pick? (a : DrawArray α) (name : String) (position : Nat) : Option (DrawArray α) := do
  let (before, count, after) ← a.dims.split? name
  if count ≤ position then none
  else
    let inner := Dims.size after
    let blocks := (List.range (Dims.size before)).map fun k =>
      a.values.extract ((k * count + position) * inner) ((k * count + position + 1) * inner)
    some ⟨before ++ after, (blocks.map Array.toList).flatten.toArray⟩

/-- The array at one place along a dimension, which must exist. -/
def pick (a : DrawArray α) (name : String) (position : Nat) : Except Fault (DrawArray α) :=
  match a.pick? name position with
  | some picked => .ok picked
  | none => .error .outOfBounds

/-- The array with a dimension under another name. -/
def renameDim (a : DrawArray α) (old new : String) : DrawArray α :=
  { a with dims := a.dims.map fun (name, count) => (if name = old then new else name, count) }

/-- Nested lists of values in row order. -/
def nested : List Nat → List Float → Value
  | [], values => .float (values.headD (0.0 / 0.0))
  | count :: sizes, values =>
    let step := sizes.foldr (· * ·) 1
    .list ((List.range count).map fun k => nested sizes ((values.drop (k * step)).take step))

/-- An array of numbers as nested lists. -/
def value (a : DrawArray Float) : Value := nested (a.dims.map Prod.snd) a.values.toList

/-- Arrays of the same dimensions as one, with a new first dimension. -/
def stack (name : String) (dims : Dims) (parts : List (DrawArray α)) : DrawArray α :=
  ⟨(name, parts.length) :: dims, (parts.map fun part => part.values.toList).flatten.toArray⟩

/-- Whether two arrays have the same dimensions and values, for a notion of the same value. -/
def same (sameValue : α → α → Bool) (a b : DrawArray α) : Bool :=
  a.dims == b.dims && a.values.size == b.values.size &&
    (a.values.toList.zip b.values.toList).all fun (x, y) => sameValue x y

end DrawArray

/-- Arrays under the names of their variables, with labels for the places along dimensions. -/
structure Dataset (α : Type) where
  arrays : List (String × DrawArray α)
  /-- The labels of dimensions that have some. -/
  labels : List (String × List String) := []
  deriving Repr, DecidableEq

namespace Dataset

variable {α β : Type}

/-- The names of the variables. -/
def names (d : Dataset α) : List String := d.arrays.map Prod.fst

/-- The variables with their dimensions. -/
def schema (d : Dataset α) : List (String × Dims) := d.arrays.map fun (name, a) => (name, a.dims)

/-- Whether two datasets have the same variables with the same dimensions, in whatever order. -/
def sameSchema (a : Dataset α) (b : Dataset β) : Bool :=
  a.schema.length == b.schema.length && a.schema.all fun (name, dims) =>
    b.schema.lookup name == some dims

/-- The dataset without some variables. -/
def without (d : Dataset α) (names : List String) : Dataset α :=
  { d with arrays := Entries.without d.arrays names }

/-- The size of a dimension. -/
def sizeOf? (d : Dataset α) (dim : String) : Option Nat :=
  (d.arrays.flatMap fun (_, a) => a.dims).lookup dim

/-- Whether no dimension has two sizes. -/
def hasConsistentSizes (d : Dataset α) : Bool :=
  let dims := (d.arrays.flatMap fun (_, a) => a.dims) ++
    d.labels.map fun (name, labels) => (name, labels.length)
  dims.all fun (name, count) => dims.lookup name == some count

/-- A dataset of variables, in which no dimension may have two sizes and every variable as many
values as it has places. -/
def make (arrays : List (String × DrawArray α)) (labels : List (String × List String) := []) :
    Except Fault (Dataset α) :=
  let d : Dataset α := ⟨Entries.putAll [] arrays, labels⟩
  if d.hasConsistentSizes && d.arrays.all fun (_, a) => a.values.size == a.dims.size then .ok d
  else .error .unconvertible

/-- The label of a place along a dimension: its own, or its position. -/
def label (d : Dataset α) (dim : String) (position : Nat) : String :=
  match (d.labels.lookup dim).bind fun labels => labels[position]? with
  | some text => text
  | none => toString position

/-- Whether two datasets hold the same variables and labels, in whatever order. -/
def same (sameValue : α → α → Bool) (a b : Dataset α) : Bool :=
  a.arrays.length == b.arrays.length &&
    (a.arrays.all fun (name, x) =>
      match b.arrays.lookup name with
      | some y => x.same sameValue y
      | none => false) &&
    a.labels.length == b.labels.length &&
    a.labels.all fun (name, labels) => b.labels.lookup name == some labels

end Dataset

end Multilevel
