import Multilevel.Draws.Posterior
import Multilevel.Proofs.Draws.Element

/-!
# Stacked arrays

Full arrays of the same dimensions are stacked along a new first dimension. Each of them is found
again at its place, and an array is the stack of its own parts along its first dimension.
-/
namespace Multilevel

variable {α : Type}

/-- Blocks of one length, cut out one after the other. -/
theorem flatten_take_drop (values : List α) (count length : Nat) :
    ((List.range count).map fun k => (values.drop (k * length)).take length).flatten =
      values.take (count * length) := by
  induction count with
  | zero => simp
  | succ count ih =>
    rw [List.range_succ, List.map_append, List.flatten_append, ih, List.map_singleton,
      List.flatten_singleton, Nat.add_mul, Nat.one_mul, List.take_add]

/-- The block at a position among blocks of one length, one after the other. -/
theorem take_drop_flatten {length : Nat} {blocks : List (List α)}
    (uniform : ∀ block ∈ blocks, block.length = length) {k : Nat} (inside : k < blocks.length) :
    (blocks.flatten.drop (k * length)).take length = blocks[k] := by
  induction blocks generalizing k with
  | nil => cases inside
  | cons block rest ih =>
    have first : block.length = length := uniform block List.mem_cons_self
    cases k with
    | zero => simp [← first]
    | succ k =>
      have later := ih (fun other mem => uniform other (List.mem_cons_of_mem _ mem))
        (Nat.lt_of_succ_lt_succ inside)
      have passed : (k + 1) * length = block.length + k * length := by rw [first]; ring
      rw [List.flatten_cons, passed, List.drop_length_add_append, later, List.getElem_cons_succ]

namespace DrawArray

/-- The part of an array at a place along its first dimension. -/
def slice (a : DrawArray α) (k : Nat) : DrawArray α :=
  ⟨a.dims.tail,
    ((a.values.toList.drop (k * Dims.size a.dims.tail)).take (Dims.size a.dims.tail)).toArray⟩

section Leading

variable {a : DrawArray α} {name : String} {count : Nat}

/-- The values of a full array lie in as many blocks as its first dimension has places. -/
theorem IsFull.size_values (full : a.IsFull) (leading : a.dims.head? = some (name, count)) :
    a.values.toList.length = count * Dims.size a.dims.tail := by
  obtain ⟨rest, dims⟩ := List.head?_eq_some_iff.mp leading
  rw [Array.length_toList, full, dims, Dims.size_cons, List.tail_cons]

/-- The part at a place along the first dimension is what is taken out there. -/
theorem pick_leading (leading : a.dims.head? = some (name, count)) {k : Nat} (inside : k < count) :
    a.pick name k = .ok (a.slice k) := by
  obtain ⟨rest, dims⟩ := List.head?_eq_some_iff.mp leading
  have within : ¬count ≤ k := Nat.not_le.mpr inside
  have first : Dims.size [] = 1 := rfl
  have width : (k + 1) * Dims.size rest - k * Dims.size rest = Dims.size rest := by
    rw [← Nat.sub_mul, Nat.add_sub_cancel_left, Nat.one_mul]
  simp only [pick, pick?, slice, dims, Dims.split?, if_true, Option.bind_eq_bind, Option.bind_some,
    if_neg within, first, List.range_one, List.map_cons, List.map_nil, Nat.zero_mul, Nat.zero_add,
    List.flatten_singleton, Array.toList_extract, List.extract_eq_take_drop, width, List.nil_append,
    List.tail_cons]

/-- The parts of a full array are full. -/
theorem IsFull.slice (full : a.IsFull) (leading : a.dims.head? = some (name, count)) {k : Nat}
    (inside : k < count) : (a.slice k).IsFull := by
  have row : (k + 1) * Dims.size a.dims.tail ≤ count * Dims.size a.dims.tail :=
    Nat.mul_le_mul_right _ inside
  rw [Nat.add_mul, Nat.one_mul] at row
  simp only [IsFull, DrawArray.slice, List.size_toArray, List.length_take, List.length_drop,
    full.size_values leading]
  omega

/-- The parts of a full array give the array when they are stacked. -/
theorem IsFull.stack_slices (full : a.IsFull) (leading : a.dims.head? = some (name, count)) :
    stack name a.dims.tail ((List.range count).map a.slice) = a := by
  obtain ⟨rest, dims⟩ := List.head?_eq_some_iff.mp leading
  have blocks := flatten_take_drop a.values.toList count (Dims.size a.dims.tail)
  rw [← full.size_values leading, List.take_length] at blocks
  have values : ((List.range count).map a.slice).map (fun part => part.values.toList) =
      (List.range count).map fun k =>
        (a.values.toList.drop (k * Dims.size a.dims.tail)).take (Dims.size a.dims.tail) :=
    List.map_map
  rw [stack, values, blocks, List.length_map, List.length_range, dims, List.tail_cons, ← dims]

end Leading

section Uniform

variable {dims : Dims} {parts : List (DrawArray α)} (name : String)
  (uniform : ∀ part ∈ parts, part.dims = dims ∧ part.IsFull)

include uniform

/-- The values of stacked arrays lie in blocks of one length. -/
theorem length_of_mem_blocks :
    ∀ block ∈ parts.map fun part => part.values.toList, block.length = Dims.size dims := by
  intro block mem
  obtain ⟨part, there, rfl⟩ := List.mem_map.mp mem
  obtain ⟨same, full⟩ := uniform part there
  rw [Array.length_toList, full, same]

/-- Stacked arrays are full. -/
theorem isFull_stack : (stack name dims parts).IsFull := by
  have lengths : (parts.map fun part => part.values.toList).map List.length =
      (parts.map fun part => part.values.toList).map fun _ => Dims.size dims :=
    List.map_congr_left (length_of_mem_blocks uniform)
  rw [IsFull, stack, List.size_toArray, List.length_flatten, lengths, List.map_const',
    List.sum_replicate_nat, List.length_map, Dims.size_cons]

/-- The part of stacked arrays at a place is the array stacked there. -/
theorem slice_stack {k : Nat} (inside : k < parts.length) :
    (stack name dims parts).slice k = parts[k] := by
  have block := take_drop_flatten (length_of_mem_blocks uniform) (k := k) (by simpa using inside)
  obtain ⟨same, _⟩ := uniform parts[k] (List.getElem_mem inside)
  rw [slice, stack, List.tail_cons, block, List.getElem_map, ← same]

/-- An array that was stacked is found at its position. -/
theorem pick_stack {k : Nat} (inside : k < parts.length) :
    (stack name dims parts).pick name k = .ok parts[k] := by
  rw [pick_leading (a := stack name dims parts) rfl inside, slice_stack name uniform inside]

end Uniform

end DrawArray

end Multilevel
