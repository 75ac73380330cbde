import Multilevel.Proofs.Number.Alike
import Multilevel.Proofs.Program.Arrays

/-!
# Designs without their zeros

A matrix that is passed without its zeros has the same products with vectors as the matrix itself
(`Exact.sparseTimes_sparse`): the starts of the rows delimit the entries of each row, and what was
left out contributes nothing to a sum.
-/
namespace Multilevel

namespace BuildData

/-- A start stands after the lengths of the rows before it. -/
theorem getElem?_startsFrom (lengths : List Nat) (first : Nat) {i : Nat}
    (within : i ≤ lengths.length) :
    (startsFrom first lengths)[i]? = some (first + (lengths.take i).sum) := by
  induction lengths generalizing first i with
  | nil =>
    obtain rfl := Nat.le_zero.mp within
    rfl
  | cons length rest ih =>
    cases i with
    | zero => rfl
    | succ i =>
      rw [startsFrom, List.getElem?_cons_succ, ih _ (Nat.le_of_succ_le_succ within),
        List.take_succ_cons, List.sum_cons, Nat.add_assoc]

/-- There is one start more than there are rows. -/
theorem length_startsFrom (first : Nat) (lengths : List Nat) :
    (startsFrom first lengths).length = lengths.length + 1 := by
  induction lengths generalizing first with
  | nil => rfl
  | cons length rest ih => rw [startsFrom, List.length_cons, ih, List.length_cons]

/-- What is kept of a row is not zero and stands in the row, its places counted from some place. -/
theorem of_mem_kept {row : List Float} {start : Nat} {entry : Float × Nat}
    (mem : entry ∈ (row.zipIdx start).filterMap fun (x, k) =>
      if x == 0.0 then none else some (x, k + 1)) :
    (entry.1 == 0.0) = false ∧ start < entry.2 ∧ entry.2 ≤ start + row.length := by
  obtain ⟨⟨x, k⟩, inside, kept⟩ := List.mem_filterMap.mp mem
  obtain ⟨above, below, _⟩ := List.mem_zipIdx inside
  dsimp only at kept
  split at kept
  · cases kept
  · rename_i other
    obtain rfl := Option.some.inj kept
    exact ⟨by simpa using other, by dsimp only; omega, by dsimp only; omega⟩

/-- The places of the kept entries of a row lie in the row. -/
theorem place_le_of_mem_nonzero {row : List Float} {entry : Float × Nat}
    (mem : entry ∈ nonzero row) : 1 ≤ entry.2 ∧ entry.2 ≤ row.length := by
  obtain ⟨_, above, below⟩ := of_mem_kept mem
  rw [Nat.zero_add] at below
  exact ⟨above, below⟩

/-- What was left out of a row contributes nothing to a weighted sum of its entries. -/
theorem sum_nonzero (row : List Float) (weight : Nat → Rat) :
    ((nonzero row).map fun entry => Number.exact entry.1 * weight (entry.2 - 1)).sum =
      (row.zipIdx.map fun entry => Number.exact entry.1 * weight entry.2).sum := by
  unfold nonzero
  induction row.zipIdx with
  | nil => rfl
  | cons entry rest ih =>
    rw [List.map_cons, List.sum_cons, ← ih, List.filterMap_cons]
    by_cases zero : (entry.1 == 0.0) = true
    · simp [zero, Number.exact_of_beq_zero zero]
    · simp [zero]

/-- The start of a row stands after the kept entries of the rows before it. -/
theorem getElem?_starts {rows : List (List Float)} {i : Nat} (within : i ≤ rows.length) :
    (sparse rows).starts[i]? = some (((rows.map nonzero).take i).flatten.length + 1) := by
  have start := getElem?_startsFrom ((rows.map nonzero).map List.length) 1
    (i := i) (by simpa using within)
  rwa [← List.map_take, ← List.length_flatten, Nat.add_comm] at start

/-- The kept entries of a row add to those of the rows before it. -/
theorem length_kept_succ {rows : List (List Float)} {i : Nat} (inside : i < rows.length) :
    ((rows.map nonzero).take (i + 1)).flatten.length =
      ((rows.map nonzero).take i).flatten.length + (nonzero rows[i]).length := by
  rw [List.take_add_one, List.flatten_append, List.length_append,
    List.getElem?_eq_getElem (by simpa using inside), List.getElem_map]
  simp

/-- What is kept of all rows is what is kept of the rows before one, of that row, and of the rows
after it. -/
theorem flatten_kept {rows : List (List Float)} {i : Nat} (inside : i < rows.length) :
    (rows.map nonzero).flatten = ((rows.map nonzero).take i).flatten ++ nonzero rows[i] ++
      ((rows.map nonzero).drop (i + 1)).flatten := by
  have split := List.take_append_drop i (rows.map nonzero)
  rw [List.drop_eq_getElem_cons (by simpa using inside), List.getElem_map] at split
  rw [List.append_assoc, ← List.flatten_cons, ← List.flatten_append]
  exact congrArg List.flatten split.symm

end BuildData

namespace Exact

open BuildData

/-- The elements between two lists are the slice after the first one. -/
theorem slice?_append {α : Type} (before own after : List α) :
    slice? (before ++ own ++ after) ((before.length + 1 : Nat) : Int)
      ((before.length + 1 + own.length : Nat) - 1 : Int) = some own := by
  have count : (((before.length + 1 + own.length : Nat) - 1 : Int) -
      ((before.length + 1 : Nat) : Int) + 1).toNat = own.length := by omega
  have read : own.mapM some = some own := by
    rw [mapM_eq_map fun x _ => rfl, List.map_id']
  rw [slice?, count, ← read]
  refine mapM_range fun k inside => ?_
  have place : ((((before.length + 1 : Nat) : Int) + (k : Nat)) - 1).toNat =
    before.length + k := by omega
  rw [at?, if_pos (by omega), place, List.append_assoc, List.getElem?_append_right (by omega),
    Nat.add_sub_cancel_left, List.getElem?_append_left inside, List.getElem?_eq_getElem inside]

/-- A row without its zeros has the same weighted sum as the row. -/
theorem dot_nonzero (row : List Float) (y : Nat → Rat) :
    (do
      let own ← ((nonzero row).map fun entry => (entry.2 : Int)).mapM
        (at? (tabulate row.length y))
      dot ((nonzero row).map fun entry => Number.exact entry.1) own) =
      dot (row.map Number.exact) (tabulate row.length y) := by
  have read : ((nonzero row).map fun entry => (entry.2 : Int)).mapM
      (at? (tabulate row.length y)) =
        some ((nonzero row).map fun entry => y (entry.2 - 1)) := by
    rw [List.mapM_map]
    refine mapM_eq_map fun entry mem => ?_
    obtain ⟨least, most⟩ := place_le_of_mem_nonzero mem
    have place : entry.2 = entry.2 - 1 + 1 := by omega
    rw [Function.comp_apply, place]
    exact at?_tabulate (by omega)
  have weighted : (row.zipIdx.map fun entry => Number.exact entry.1 * y entry.2) =
      (row.map Number.exact).zipWith (· * ·) (tabulate row.length y) := by
    apply List.ext_getElem
    · simp
    · intro k inside _
      simp [tabulate]
  rw [read, Option.bind_eq_bind, Option.bind_some, dot, if_pos (by simp), dot, if_pos (by simp),
    ← weighted, ← sum_nonzero, List.zipWith_map, List.zipWith_self]

/-- What is kept of a row stands from its start to before the next one. -/
theorem slice?_kept {α : Type} {rows : List (List Float)} {i : Nat} (inside : i < rows.length)
    (f : Float × Nat → α) :
    slice? ((rows.map nonzero).flatten.map f)
        ((((rows.map nonzero).take i).flatten.length + 1 : Nat) : Int)
        ((((rows.map nonzero).take (i + 1)).flatten.length + 1 : Nat) - 1 : Int) =
      some ((nonzero rows[i]).map f) := by
  have found := slice?_append (((rows.map nonzero).take i).flatten.map f)
    ((nonzero rows[i]).map f) (((rows.map nonzero).drop (i + 1)).flatten.map f)
  rw [List.length_map, List.length_map] at found
  rw [flatten_kept inside, List.map_append, List.map_append, length_kept_succ inside,
    Nat.add_right_comm]
  exact found

/-- The products of a matrix without its zeros and a vector are those of the matrix. -/
theorem sparseTimes_sparse (rows : List (List Float)) {columns : Nat}
    (width : ∀ row ∈ rows, row.length = columns) (y : Nat → Rat) :
    sparseTimes rows.length columns ((sparse rows).entries.map Number.exact)
        ((sparse rows).columns.map Int.ofNat) ((sparse rows).starts.map Int.ofNat)
        (tabulate columns y) =
      (rows.map fun row => row.map Number.exact).mapM fun row => dot row (tabulate columns y) := by
  have entries : (sparse rows).entries.map Number.exact =
      (rows.map nonzero).flatten.map fun entry => Number.exact entry.1 := by
    simp [sparse, List.flatMap, List.map_flatten, Function.comp_def]
  have places : (sparse rows).columns.map Int.ofNat =
      (rows.map nonzero).flatten.map fun entry => (entry.2 : Int) := by
    simp [sparse, List.flatMap, List.map_flatten, Function.comp_def]
  have count : ((sparse rows).starts.map Int.ofNat).length = (rows.length : Int) + 1 := by
    rw [List.length_map, sparse, length_startsFrom]
    simp
  have starts {i : Nat} (within : i ≤ rows.length) :
      ((sparse rows).starts.map Int.ofNat)[i]? =
        some ((((rows.map nonzero).take i).flatten.length + 1 : Nat) : Int) := by
    rw [List.getElem?_map, getElem?_starts within]
    rfl
  have bounded : (((sparse rows).columns.map Int.ofNat).all
      fun place => 1 ≤ place && place ≤ columns) = true := by
    rw [places, List.all_eq_true]
    intro place mem
    obtain ⟨entry, kept, rfl⟩ := List.mem_map.mp mem
    obtain ⟨own, listed, inside⟩ := List.mem_flatten.mp kept
    obtain ⟨row, given, rfl⟩ := List.mem_map.mp listed
    have within := place_le_of_mem_nonzero inside
    rw [width row given] at within
    simp only [Bool.and_eq_true, decide_eq_true_eq]
    omega
  rw [sparseTimes, if_pos, Int.toNat_natCast]
  · rw [← List.length_map (fun row : List Float => row.map Number.exact)]
    refine mapM_range fun i inside => ?_
    rw [List.length_map] at inside
    have own : rows[i].length = columns := width _ (List.getElem_mem inside)
    rw [starts (Nat.le_of_lt inside), starts (Nat.succ_le_of_lt inside), entries, places]
    simp only [Option.bind_eq_bind, Option.bind_some, slice?_kept inside, List.getElem_map]
    have same := dot_nonzero rows[i] y
    rw [own] at same
    exact same
  · have size : ((rows.map nonzero).take rows.length).flatten = (rows.map nonzero).flatten := by
      rw [List.take_of_length_le (List.length_map nonzero).le]
    refine ⟨count, by simp, by rw [entries, places, List.length_map, List.length_map], ?_, bounded⟩
    rw [List.getLast?_eq_getElem?, show _ - 1 = rows.length by omega,
      starts (Nat.le_refl _), size, entries, List.length_map, Nat.cast_succ]

end Exact

end Multilevel
