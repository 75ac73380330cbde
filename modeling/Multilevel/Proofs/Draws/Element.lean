import Mathlib
import Multilevel.Draws.Dataset

/-!
# Elements of arrays of draws

Where the elements of an array lie in row order, and what an array keeps of its elements when it
loses a dimension (`DrawArray.exists_pick?`).
-/
namespace Multilevel

namespace Dims

/-- The place in row order of a position along each dimension. -/
def position : Dims → List Nat → Nat
  | _ :: rest, k :: positions => k * size rest + position rest positions
  | _, _ => 0

/-- Positions that lie within the dimensions. -/
def Inside (dims : Dims) (positions : List Nat) : Prop :=
  List.Forall₂ (fun dim k => k < dim.2) dims positions

/-- One dimension more multiplies the number of places. -/
theorem size_cons (dim : String × Nat) (dims : Dims) : size (dim :: dims) = dim.2 * size dims := rfl

/-- The places of dimensions in two parts. -/
theorem size_append (first second : Dims) : size (first ++ second) = size first * size second := by
  induction first with
  | nil => exact (Nat.one_mul _).symm
  | cons dim rest ih => rw [List.cons_append, size_cons, size_cons, ih, Nat.mul_assoc]

/-- Positions within the dimensions lead to a place. -/
theorem position_lt {dims : Dims} {positions : List Nat} (inside : dims.Inside positions) :
    dims.position positions < dims.size := by
  induction inside with
  | nil => exact Nat.one_pos
  | @cons dim k rest positions below _ ih =>
    have row : (k + 1) * size rest ≤ dim.2 * size rest := Nat.mul_le_mul_right _ below
    rw [Nat.add_mul, Nat.one_mul] at row
    rw [size_cons, position]
    omega

/-- The place of positions in two parts. -/
theorem position_append {first second : Dims} {before after : List Nat}
    (inside : first.Inside before) :
    (first ++ second).position (before ++ after) =
      first.position before * size second + second.position after := by
  induction inside with
  | nil =>
    show second.position after = 0 * size second + second.position after
    rw [Nat.zero_mul, Nat.zero_add]
  | cons _ _ ih =>
    rw [List.cons_append, List.cons_append, position, position, ih, size_append]
    ring

/-- The place that a place along each named dimension leads to. -/
theorem offset_eq_position (dims : Dims) (place : String → Nat) :
    dims.offset place = dims.position (dims.map fun dim => place dim.1) := by
  have started (start : Nat) : dims.foldl (fun at' dim => at' * dim.2 + place dim.1) start =
      start * size dims + dims.position (dims.map fun dim => place dim.1) := by
    induction dims generalizing start with
    | nil =>
      show start = start * 1 + 0
      rw [Nat.mul_one, Nat.add_zero]
    | cons dim rest ih =>
      rw [List.foldl_cons, ih, List.map_cons, position, size_cons]
      ring
  have none := started 0
  rwa [Nat.zero_mul, Nat.zero_add] at none

/-- A dimension is found behind others of other names. -/
theorem split?_append {before : Dims} (name : String) (count : Nat) (after : Dims)
    (fresh : name ∉ before.map Prod.fst) :
    split? (before ++ (name, count) :: after) name = some (before, count, after) := by
  induction before with
  | nil => rw [List.nil_append, split?, if_pos rfl]
  | cons dim rest ih =>
    rw [List.map_cons, List.mem_cons, not_or] at fresh
    rw [List.cons_append, split?, if_neg fun same => fresh.1 same.symm, ih fresh.2]
    rfl

end Dims

section Blocks

/-- The number of elements of lists of one length. -/
theorem length_flatten_range {α : Type} {count length : Nat} {block : Nat → List α}
    (uniform : ∀ b < count, (block b).length = length) :
    ((List.range count).map block).flatten.length = count * length := by
  have each : ((List.range count).map block).map List.length =
      (List.range count).map fun _ => length := by
    rw [List.map_map]
    exact List.map_congr_left fun b mem => uniform b (List.mem_range.mp mem)
  rw [List.length_flatten, each, List.map_const', List.sum_replicate_nat, List.length_range]

/-- The elements of lists of one length, one after the other. -/
theorem getElem?_flatten_range {α : Type} {count length : Nat} {block : Nat → List α}
    (uniform : ∀ b < count, (block b).length = length) {b i : Nat} (inside : b < count)
    (below : i < length) :
    ((List.range count).map block).flatten[b * length + i]? = (block b)[i]? := by
  induction count with
  | zero => omega
  | succ count ih =>
    have earlier := ih fun c before => uniform c (Nat.lt_succ_of_lt before)
    have total := length_flatten_range fun c (before : c < count) =>
      uniform c (Nat.lt_succ_of_lt before)
    rw [List.range_succ, List.map_append, List.flatten_append, List.map_singleton,
      List.flatten_singleton]
    by_cases last : b = count
    · subst last
      rw [List.getElem?_append_right (by omega), total]
      congr 1
      omega
    · have first : b < count := by omega
      have row : (b + 1) * length ≤ count * length := Nat.mul_le_mul_right _ first
      rw [Nat.add_mul, Nat.one_mul] at row
      rw [List.getElem?_append_left (by omega), earlier first]

end Blocks

namespace DrawArray

variable {α : Type}

/-- The value at a position along each dimension. -/
def element? (a : DrawArray α) (positions : List Nat) : Option α :=
  a.values[a.dims.position positions]?

/-- Whether an array has a value for each of its places. -/
def IsFull (a : DrawArray α) : Prop := a.values.size = a.dims.size

instance (a : DrawArray α) : Decidable a.IsFull := inferInstanceAs (Decidable (_ = _))

/-- The value at a place along each named dimension. -/
theorem get?_eq_element? (a : DrawArray α) (place : String → Nat) :
    a.get? place = a.element? (a.dims.map fun dim => place dim.1) := by
  rw [get?, element?, Dims.offset_eq_position]

/-- A full array has a value at every position within its dimensions. -/
theorem IsFull.exists_element? {a : DrawArray α} (full : a.IsFull) {positions : List Nat}
    (inside : a.dims.Inside positions) : ∃ x, a.element? positions = some x := by
  have below : a.dims.position positions < a.values.size := full ▸ Dims.position_lt inside
  exact ⟨_, Array.getElem?_eq_getElem below⟩

/-- The row at a place, if the values of an array are cut into rows of one length. -/
def row (a : DrawArray α) (length place : Nat) : List α :=
  (a.values.extract (place * length) ((place + 1) * length)).toList

section Row

variable {a : DrawArray α} {length place : Nat}

/-- A row within the values is as long as all rows. -/
theorem length_row (within : (place + 1) * length ≤ a.values.size) :
    (a.row length place).length = length := by
  rw [Nat.add_mul, Nat.one_mul] at within
  rw [row, Array.length_toList, Array.size_extract, Nat.add_mul, Nat.one_mul]
  omega

/-- The elements of a row are values of the array. -/
theorem getElem?_row (within : (place + 1) * length ≤ a.values.size) {i : Nat}
    (below : i < length) : (a.row length place)[i]? = a.values[place * length + i]? := by
  rw [Nat.add_mul, Nat.one_mul] at within
  rw [row, Array.getElem?_toList, Array.getElem?_extract, if_pos]
  rw [Nat.add_mul, Nat.one_mul]
  omega

end Row

/-- A full array at one position along a dimension: it loses the dimension and keeps its elements
there. -/
theorem exists_pick? {a : DrawArray α} (full : a.IsFull) {before after : Dims} {name : String}
    {count k : Nat} (dims : a.dims = before ++ (name, count) :: after)
    (fresh : name ∉ before.map Prod.fst) (inside : k < count) :
    ∃ picked, a.pick? name k = some picked ∧ picked.dims = before ++ after ∧ picked.IsFull ∧
      ∀ first second, before.Inside first → after.Inside second →
        picked.element? (first ++ second) = a.element? (first ++ k :: second) := by
  have found : a.dims.split? name = some (before, count, after) := by
    rw [dims, Dims.split?_append name count after fresh]
  have picked : a.pick? name k = some ⟨before ++ after, ((List.range (Dims.size before)).map
      fun b => a.row (Dims.size after) (b * count + k)).flatten.toArray⟩ := by
    simp only [pick?, found, Option.bind_eq_bind, Option.bind_some, if_neg (Nat.not_le.mpr inside),
      List.map_map]
    rfl
  have total : a.values.size = Dims.size before * (count * Dims.size after) := by
    rw [full, dims, Dims.size_append, Dims.size_cons]
  have within (b : Nat) (below : b < Dims.size before) :
      (b * count + k + 1) * Dims.size after ≤ a.values.size := by
    have next : (b + 1) * count ≤ Dims.size before * count := Nat.mul_le_mul_right _ below
    rw [Nat.add_mul, Nat.one_mul] at next
    rw [total, ← Nat.mul_assoc]
    exact Nat.mul_le_mul_right _ (by omega)
  have uniform (b : Nat) (below : b < Dims.size before) :
      (a.row (Dims.size after) (b * count + k)).length = Dims.size after :=
    length_row (within b below)
  refine ⟨_, picked, rfl, ?_, fun first second left right => ?_⟩
  · rw [IsFull, List.size_toArray, length_flatten_range uniform, Dims.size_append]
  · have outer := Dims.position_lt left
    have inner := Dims.position_lt right
    rw [element?, element?, Dims.position_append left, dims, Dims.position_append left,
      Dims.position, Dims.size_cons, List.getElem?_toArray,
      getElem?_flatten_range uniform outer inner, getElem?_row (within _ outer) inner]
    congr 1
    ring

end DrawArray

end Multilevel
