import Mathlib
import Multilevel.Proofs.Program.Meaning

/-!
# Arrays given by their elements

How the operations on arrays act on arrays that are given element by element: what is read, what
is written, and sums of products.
-/
namespace Multilevel.Exact

variable {α β : Type} {size : Nat}

@[simp]
theorem length_tabulate (size : Nat) (f : Nat → α) : (tabulate size f).length = size := by
  simp [tabulate]

/-- Arrays with the same elements are the same. -/
theorem tabulate_congr {f g : Nat → α} (same : ∀ k < size, f k = g k) :
    tabulate size f = tabulate size g :=
  List.map_congr_left fun k mem => same k (List.mem_range.mp mem)

/-- An array whose elements a function of its places gives. -/
theorem tabulate_eq_ofFn {f : Nat → α} {g : Fin size → α} (same : ∀ n : Fin size, f n = g n) :
    tabulate size f = List.ofFn g := by
  apply List.ext_getElem
  · simp
  · intro k inside _
    rw [length_tabulate] at inside
    simpa [tabulate] using same ⟨k, inside⟩

/-- An array of one repeated element. -/
theorem replicate_eq_tabulate (size : Nat) (x : α) :
    List.replicate size x = tabulate size fun _ => x := by
  simp [tabulate, List.map_const']

/-- The elements of a vector. -/
theorem toList_eq_tabulate (cells : Vector α size) (blank : α) :
    cells.toList = tabulate size fun k => cells[k]?.getD blank := by
  apply List.ext_getElem
  · simp
  · intro k inside _
    rw [Vector.length_toList] at inside
    simp [tabulate, inside]

/-- A function applied to each element. -/
theorem map_tabulate (f : Nat → α) (g : α → β) :
    (tabulate size f).map g = tabulate size fun k => g (f k) := by
  simp [tabulate]

/-- The element at a place counted from zero. -/
theorem getElem?_tabulate {f : Nat → α} {k : Nat} (inside : k < size) :
    (tabulate size f)[k]? = some (f k) := by
  simp [tabulate, inside]

/-- The element at a place counted from one. -/
theorem at?_tabulate {f : Nat → α} {k : Nat} (inside : k < size) :
    at? (tabulate size f) ((k + 1 : Nat) : Int) = some (f k) := by
  have place : (((k + 1 : Nat) : Int) - 1).toNat = k := by omega
  rw [at?, if_pos (by omega), place, getElem?_tabulate inside]

/-- An element that is put in place of another one. -/
theorem put?_tabulate {f : Nat → α} {k : Nat} (inside : k < size) (x : α) :
    put? (tabulate size f) ((k + 1 : Nat) : Int) x =
      some (tabulate size (Function.update f k x)) := by
  have place : (((k + 1 : Nat) : Int) - 1).toNat = k := by omega
  rw [put?, if_pos (by rw [length_tabulate]; omega), place]
  congr 1
  apply List.ext_getElem?
  intro j
  by_cases here : j < size
  · rw [getElem?_tabulate here, List.getElem?_set, length_tabulate, getElem?_tabulate here]
    by_cases same : k = j
    · subst same
      simp [here]
    · rw [if_neg same, Function.update_of_ne (fun equal => same equal.symm)]
  · rw [List.getElem?_eq_none (by simpa using here), List.getElem?_eq_none (by simpa using here)]

/-- A function that has a result for each element of a list. -/
theorem mapM_eq_map {elements : List α} {f : α → Option β} {g : α → β}
    (each : ∀ x ∈ elements, f x = some (g x)) : elements.mapM f = some (elements.map g) := by
  induction elements with
  | nil => rfl
  | cons first rest ih =>
    rw [List.mapM_cons, each first (by simp), ih fun x mem => each x (by simp [mem])]
    rfl

/-- A function that has a result for each element of an array. -/
theorem mapM_tabulate {f : Nat → α} {g : α → Option β} {h : Nat → β}
    (each : ∀ k < size, g (f k) = some (h k)) :
    (tabulate size f).mapM g = some (tabulate size h) := by
  rw [tabulate, List.mapM_map]
  exact mapM_eq_map fun k mem => each k (List.mem_range.mp mem)

/-- A function of the places of a list that only looks at the elements there. -/
theorem mapM_range {elements : List α} {f : α → Option β} {g : Nat → Option β}
    (each : ∀ k (inside : k < elements.length), g k = f elements[k]) :
    (List.range elements.length).mapM g = elements.mapM f := by
  induction elements using List.reverseRecOn with
  | nil => rfl
  | append_singleton before last ih =>
    have earlier := ih fun k inside => by
      have here := each k (by rw [List.length_append]; omega)
      rwa [List.getElem_append_left inside] at here
    have own : g before.length = f last := by
      simpa using each before.length (by simp)
    rw [List.length_append, List.length_singleton, List.range_succ, List.mapM_append,
      List.mapM_append, earlier]
    simp [own]

/-- A function of the elements of two arrays. -/
theorem zipWith_tabulate {γ : Type} (op : α → β → γ) (f : Nat → α) (g : Nat → β) :
    (tabulate size f).zipWith op (tabulate size g) = tabulate size fun k => op (f k) (g k) := by
  simp [tabulate, List.zipWith_map, List.zipWith_self]

/-- The sum of an array. -/
theorem sum_tabulate (f : Nat → Rat) : (tabulate size f).sum = ∑ k ∈ Finset.range size, f k :=
  rfl

/-- The sum of the products of elements. -/
theorem dot_tabulate (f g : Nat → Rat) :
    dot (tabulate size f) (tabulate size g) = some (∑ k ∈ Finset.range size, f k * g k) := by
  rw [dot, if_pos (by simp), zipWith_tabulate, sum_tabulate]

/-- The sums of the products of the elements of each row and those of a vector. -/
theorem mapM_dot_tabulate {rows : Nat} (f : Nat → Nat → Rat) (g : Nat → Rat) :
    (tabulate rows fun n => tabulate size (f n)).mapM (fun row => dot row (tabulate size g)) =
      some (tabulate rows fun n => ∑ k ∈ Finset.range size, f n k * g k) :=
  mapM_tabulate fun n _ => dot_tabulate (f n) g

/-- The product of a matrix and a vector. -/
theorem times_tabulate {rows : Nat} (f : Nat → Nat → Rat) (g : Nat → Rat) :
    times (.matrix (tabulate rows fun n => tabulate size (f n))) (.vector (tabulate size g)) =
      some (.vector (tabulate rows fun n => ∑ k ∈ Finset.range size, f n k * g k)) :=
  congrArg (Option.map vector) (mapM_dot_tabulate f g)

/-- The sum of two vectors, or their difference. -/
theorem combine_vectors (wholes : Int → Int → Int) (reals : Rat → Rat → Rat) (f g : Nat → Rat) :
    combine wholes reals (.vector (tabulate size f)) (.vector (tabulate size g)) =
      some (.vector (tabulate size fun k => reals (f k) (g k))) := by
  rw [← zipWith_tabulate]
  exact if_pos (by simp)

/-- The sum of each element of a vector and a number, or their difference. -/
theorem combine_vector_real (wholes : Int → Int → Int) (reals : Rat → Rat → Rat) (f : Nat → Rat)
    (y : Rat) :
    combine wholes reals (.vector (tabulate size f)) (.real y) =
      some (.vector (tabulate size fun k => reals (f k) y)) := by
  rw [← map_tabulate f fun x => reals x y]
  rfl

/-- The sum of a number and each element of a vector, or their difference. -/
theorem combine_real_vector (wholes : Int → Int → Int) (reals : Rat → Rat → Rat) (x : Rat)
    (g : Nat → Rat) :
    combine wholes reals (.real x) (.vector (tabulate size g)) =
      some (.vector (tabulate size fun k => reals x (g k))) := by
  rw [← map_tabulate g (reals x)]
  rfl

/-- A vector of one repeated number. -/
theorem apply_repeat (size : Nat) (x : Rat) :
    apply "rep_vector" [.single (.real x), .single (.int size)] =
      some (.vector (tabulate size fun _ => x)) := by
  rw [← replicate_eq_tabulate]
  rfl

/-- The sum of the products of the elements of two vectors. -/
theorem apply_dot (f g : Nat → Rat) :
    apply "dot_product" [.single (.vector (tabulate size f)), .single (.vector (tabulate size g))] =
      some (.real (∑ k ∈ Finset.range size, f k * g k)) :=
  congrArg (Option.map real) (dot_tabulate f g)

/-- The mean of a vector that is not empty. -/
theorem apply_mean (positive : 0 < size) (f : Nat → Rat) :
    apply "mean" [.single (.vector (tabulate size f))] =
      some (.real ((∑ n ∈ Finset.range size, f n) / size)) := by
  have occupied : ¬(tabulate size f).isEmpty = true := by
    rw [List.isEmpty_iff, ← List.length_eq_zero_iff, length_tabulate]
    omega
  show (if (tabulate size f).isEmpty then none
    else some (real ((tabulate size f).sum / (tabulate size f).length))) = _
  rw [if_neg occupied, sum_tabulate, length_tabulate]

/-- An element of a vector. -/
theorem select_vector {f : Nat → Rat} {k : Nat} (inside : k < size) :
    select (.vector (tabulate size f)) [.single (.int (k + 1 : Nat))] = some (.real (f k)) :=
  congrArg (Option.map real) (at?_tabulate inside)

/-- An element of an array of integers. -/
theorem select_ints {f : Nat → Int} {k : Nat} (inside : k < size) :
    select (.ints (tabulate size f)) [.single (.int (k + 1 : Nat))] = some (.int (f k)) :=
  congrArg (Option.map int) (at?_tabulate inside)

/-- A column of a matrix. -/
theorem select_column {rows j : Nat} {f : Nat → Nat → Rat} (inside : j < size) :
    select (.matrix (tabulate rows fun n => tabulate size (f n)))
        [.everywhere, .single (.int (j + 1 : Nat))] =
      some (.vector (tabulate rows fun n => f n j)) := by
  have cells := mapM_tabulate (g := fun cells => at? cells (j + 1 : Nat))
    fun n (_ : n < rows) => at?_tabulate (f := f n) inside
  exact congrArg (Option.map vector) cells

/-- A vector with another element. -/
theorem update_vector {f : Nat → Rat} {k : Nat} (inside : k < size) (x : Rat) :
    update (.vector (tabulate size f)) [.single (.int (k + 1 : Nat))] (.real x) =
      some (.vector (tabulate size (Function.update f k x))) :=
  congrArg (Option.bind · fun values => some (vector values)) (put?_tabulate inside x)

/-- A matrix with another column. -/
theorem update_column {rows j : Nat} {f : Nat → Nat → Rat} (inside : j < size) (g : Nat → Rat) :
    update (.matrix (tabulate rows fun n => tabulate size (f n)))
        [.everywhere, .single (.int (j + 1 : Nat))] (.vector (tabulate rows g)) =
      some (.matrix (tabulate rows fun n => tabulate size (Function.update (f n) j (g n)))) := by
  have cells := mapM_tabulate (f := fun n => (tabulate size (f n), g n))
    (g := fun cell : List Rat × Rat => put? cell.1 (j + 1 : Nat) cell.2)
    fun n (_ : n < rows) => put?_tabulate (f := f n) inside (g n)
  show (if (tabulate rows fun n => tabulate size (f n)).length = (tabulate rows g).length then
    (((tabulate rows fun n => tabulate size (f n)).zip (tabulate rows g)).mapM fun cell =>
      put? cell.1 (j + 1 : Nat) cell.2).map matrix else none) = _
  rw [if_pos (by simp), List.zip, zipWith_tabulate]
  exact congrArg (Option.map matrix) cells

/-- All elements of an array. -/
theorem slice?_tabulate (f : Nat → α) :
    slice? (tabulate size f) 1 size = some (tabulate size f) := by
  have count : ((size : Int) - 1 + 1).toNat = size := by omega
  rw [slice?, count]
  refine mapM_eq_map fun k mem => ?_
  have place : (1 : Int) + (k : Nat) = ((k + 1 : Nat) : Int) := by omega
  rw [place]
  exact at?_tabulate (List.mem_range.mp mem)

/-- A row of a matrix. -/
theorem select_row {rows n : Nat} {f : Nat → Nat → Rat} (inside : n < rows) :
    select (.matrix (tabulate rows fun n => tabulate size (f n)))
        [.single (.int (n + 1 : Nat)), .span 1 size] =
      some (.row (tabulate size (f n))) := by
  show (do
    return row
      (← slice? (← at? (tabulate rows fun n => tabulate size (f n)) (n + 1 : Nat)) 1 size)) = _
  rw [at?_tabulate inside]
  exact congrArg (Option.bind · fun cells => some (row cells)) (slice?_tabulate (f n))

/-- A matrix with another entry. -/
theorem update_entry {rows n j : Nat} {f : Nat → Nat → Rat} (above : n < rows) (inside : j < size)
    (x : Rat) :
    update (.matrix (tabulate rows fun n => tabulate size (f n)))
        [.single (.int (n + 1 : Nat)), .single (.int (j + 1 : Nat))] (.real x) =
      some (.matrix (tabulate rows fun m =>
        tabulate size (Function.update f n (Function.update (f n) j x) m))) := by
  have entries : tabulate rows (Function.update (fun n => tabulate size (f n)) n
      (tabulate size (Function.update (f n) j x))) = tabulate rows fun m =>
        tabulate size (Function.update f n (Function.update (f n) j x) m) := by
    refine tabulate_congr fun m _ => ?_
    by_cases here : m = n
    · rw [here, Function.update_self, Function.update_self]
    · rw [Function.update_of_ne here, Function.update_of_ne here]
  show (do
    return matrix (← put? (tabulate rows fun n => tabulate size (f n)) (n + 1 : Nat)
      (← put? (← at? (tabulate rows fun n => tabulate size (f n)) (n + 1 : Nat)) (j + 1 : Nat)
        (← (real x).number?)))) = _
  rw [at?_tabulate above, ← entries]
  show (do
    return matrix (← put? (tabulate rows fun n => tabulate size (f n)) (n + 1 : Nat)
      (← put? (tabulate size (f n)) (j + 1 : Nat) x))) = _
  rw [put?_tabulate inside]
  exact congrArg (Option.bind · fun rows => some (matrix rows)) (put?_tabulate above _)

/-- The product of a row and a vector. -/
theorem times_row (f g : Nat → Rat) :
    times (.row (tabulate size f)) (.vector (tabulate size g)) =
      some (.real (∑ k ∈ Finset.range size, f k * g k)) :=
  congrArg (Option.map real) (dot_tabulate f g)

/-- A matrix of zeros. -/
theorem apply_zeros (rows columns : Nat) :
    apply "rep_matrix" [.single (.int 0), .single (.int rows), .single (.int columns)] =
      some (.matrix (tabulate rows fun _ => tabulate columns fun _ => 0)) := by
  rw [← replicate_eq_tabulate, ← replicate_eq_tabulate]
  rfl

/-- A matrix is kept in place of one of its sizes. -/
theorem keep_matrix {rows : Nat} (f g : Nat → Nat → Rat) :
    keep (.matrix (tabulate rows fun n => tabulate size (f n)))
        (.matrix (tabulate rows fun n => tabulate size (g n))) =
      some (.matrix (tabulate rows fun n => tabulate size (g n))) := by
  have same : ((tabulate rows fun n => tabulate size (f n)).map List.length ==
      (tabulate rows fun n => tabulate size (g n)).map List.length) = true := by
    simp [map_tabulate]
  exact if_pos same

/-- A vector is kept in place of one of its size. -/
theorem keep_vector (f g : Nat → Rat) :
    keep (.vector (tabulate size f)) (.vector (tabulate size g)) =
      some (.vector (tabulate size g)) := by
  have same : ((tabulate size f).length == (tabulate size g).length) = true := by simp
  exact if_pos same

end Multilevel.Exact
