import Multilevel.Draws.Posterior
import Multilevel.Number.Layout

/-!
# Summaries of draws

Every element of every variable is summarised by the mean, the standard deviation and quantiles
of its draws, pooled over all chains. The arithmetic is that of any ordered field with roots, so
the same definitions summarise exact numbers. Sums are taken in halves and in eight strands, which
keeps their rounding errors small.
-/
namespace Multilevel

/-- Numbers that draws consist of. -/
class DrawNumber (α : Type) extends Add α, Sub α, Mul α, Div α where
  /-- The number of a count. -/
  ofNat : Nat → α
  /-- Whether a number is at most another one. -/
  atMost : α → α → Bool
  /-- The integer part of a number that is not negative. -/
  floor : α → Nat
  /-- The square root. -/
  root : α → α
  /-- Whether a value is no number. -/
  isNone : α → Bool
  /-- No number. -/
  none : α

instance : DrawNumber Float where
  ofNat n := Number.ofInt n
  atMost x y := x ≤ y
  floor x := (Number.truncate x).toNat
  root := Float.sqrt
  isNone := Float.isNaN
  none := 0.0 / 0.0

namespace Summary

variable {α : Type} [DrawNumber α]

/-- The sum of numbers from left to right. -/
def plainSum (start : α) (xs : List α) : α := xs.foldl (· + ·) start

/-- Adds numbers to eight strands in turn, as long as there are eight of them; the rest is left. -/
def addStrands (strands : List α) : Nat → List α → List α × List α
  | 0, xs => (strands, xs)
  | blocks + 1, xs => addStrands (List.zipWith (· + ·) strands (xs.take 8)) blocks (xs.drop 8)

/-- The sum of at most 128 numbers in eight strands. -/
def strandSum (xs : List α) : α :=
  match addStrands (xs.take 8) (xs.length / 8 - 1) (xs.drop 8) with
  | ([a, b, c, d, e, f, g, h], rest) =>
    plainSum (((a + b) + (c + d)) + ((e + f) + (g + h))) rest
  | (_, _) => plainSum (DrawNumber.ofNat 0) xs

/-- The sum of numbers: few from left to right, more in eight strands, many in two halves. -/
def sum (xs : List α) : α :=
  if xs.length < 8 then plainSum (DrawNumber.ofNat 0) xs
  else if xs.length ≤ 128 then strandSum xs
  else
    let half := xs.length / 2 / 8 * 8
    sum (xs.take half) + sum (xs.drop half)
  termination_by xs.length
  decreasing_by all_goals simp only [List.length_take, List.length_drop]; omega

/-- The mean of numbers. -/
def mean (xs : List α) : α := sum xs / DrawNumber.ofNat xs.length

/-- The variance of numbers, estimated with one degree of freedom less than there are numbers. -/
def variance (xs : List α) : α :=
  let center := mean xs
  sum (xs.map fun x => (x - center) * (x - center)) / DrawNumber.ofNat (xs.length - 1)

/-- The point that lies a fraction of the way from one number to another. -/
def between (a b t : α) : α :=
  let gap := b - a
  if DrawNumber.atMost (DrawNumber.ofNat 1) (t + t) then b - gap * (DrawNumber.ofNat 1 - t)
  else a + gap * t

/-- A quantile of numbers in ascending order: interpolated between its two neighbours. -/
def quantileOf (sorted : Array α) (q : α) : α :=
  let last := sorted.size - 1
  let place := DrawNumber.ofNat last * q
  let low := DrawNumber.floor place
  if last ≤ low then
    match sorted[last]? with
    | some x => between x x (DrawNumber.ofNat 1)
    | none => DrawNumber.none
  else
    match sorted[low]?, sorted[low + 1]? with
    | some a, some b => between a b (place - DrawNumber.ofNat low)
    | _, _ => DrawNumber.none

/-- The quantiles of numbers; none of them is a number if one of the numbers is none. -/
def quantiles (qs : List α) (xs : List α) : List α :=
  if xs.any DrawNumber.isNone then qs.map fun _ => DrawNumber.none
  else
    let sorted := (xs.mergeSort DrawNumber.atMost).toArray
    qs.map (quantileOf sorted)

/-- The summary of the draws of one element. -/
structure Row (α : Type) where
  mean : α
  deviation : α
  quantiles : List α
  deriving Repr

/-- The summary of numbers. -/
def row (qs : List α) (xs : List α) : Row α :=
  ⟨mean xs, DrawNumber.root (variance xs), quantiles qs xs⟩

/-- The columns of a table of values in row order. -/
def columns (rows width : Nat) (values : Array α) : List (List α) :=
  (List.range width).map fun column =>
    (List.range rows).filterMap fun row => values[row * width + column]?

/-- The label of an element. -/
def elementLabel (d : Dataset α) (name : String) (extra : Dims) (place : List Nat) : String :=
  if extra.isEmpty then name
  else
    let labels := (extra.zip place).map fun ((dim, _), k) => d.label dim k
    name ++ "[" ++ ",".intercalate labels ++ "]"

/-- The summaries of the elements of a variable under their labels. With chains and draws in front
of the other dimensions, the array is a table with a row for each draw of each chain and a column
for each element. -/
def rowsOfVariable (d : Dataset α) (qs : List α) (name : String) (a : DrawArray α) :
    List (String × Row α) :=
  let sample := a.dims.sample
  let extra := a.dims.extra
  let table := (a.transpose (sample ++ extra)).values
  let labels := (Dims.places extra).map (elementLabel d name extra)
  (labels.zip (columns (Dims.size sample) (Dims.size extra) table)).map fun (label, column) =>
    (label, row qs column)

/-- Whether a number may be a quantile. -/
def isFraction (q : α) : Bool :=
  DrawNumber.atMost (DrawNumber.ofNat 0) q && DrawNumber.atMost q (DrawNumber.ofNat 1)

/-- The summaries of all elements. Of two elements with one label, the later replaces the
earlier. -/
def rows (d : Dataset α) (qs : List α) : Except Fault (List (String × Row α)) := do
  if d.arrays.any fun (_, a) => Dims.size a.dims.sample == 0 then throw .unconvertible
  let all := d.arrays.flatMap fun (name, a) => rowsOfVariable d qs name a
  if !all.isEmpty && !qs.all isFraction then throw .unconvertible
  return Entries.putAll [] all

end Summary

/-- A table of summaries. -/
structure SummaryTable where
  columns : List String
  rows : List (String × List Float)
  deriving Repr

namespace SummaryTable

/-- The name of the column of a quantile. -/
def quantileName (q : Float) : String := "q" ++ Number.label (100.0 * q)

/-- The cells of a row under the names of their columns. -/
def cells (qs : List Float) (row : Summary.Row Float) : List (String × Float) :=
  Entries.putAll [] ([("mean", row.mean), ("sd", row.deviation)] ++
    (qs.map quantileName).zip row.quantiles)

/-- The quantiles that are reported unless others are asked for. -/
def standardQuantiles : List Float := [0.025, 0.975]

/-- The table of the summaries of a dataset. -/
def ofDataset (d : Dataset Float) (qs : List Float) : Except Fault SummaryTable := do
  let rows ← Summary.rows d qs
  let table := rows.map fun (label, row) => (label, cells qs row)
  let columns := match table with
    | [] => []
    | (_, first) :: _ => first.map Prod.fst
  return ⟨columns, table.map fun (label, row) => (label, row.map Prod.snd)⟩

end SummaryTable

end Multilevel
