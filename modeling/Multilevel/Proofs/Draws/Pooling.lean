import Mathlib
import Multilevel.Draws.Summary
import Multilevel.Proofs.Draws.Element
import Multilevel.Proofs.Entries

/-!
# Draws of an element

An array with its dimensions in another order has every value where it was, by the names of the
dimensions (`DrawArray.get?_transpose`). With chains and draws in front, it is a table that has in
each column the draws of one element, over all chains (`DrawArray.columns_transpose`).
-/
namespace Multilevel

namespace Dims

/-- There are as many places as positions in row order. -/
theorem length_places (dims : Dims) : (places dims).length = size dims := by
  induction dims with
  | nil => rfl
  | cons dim rest ih =>
    rw [places, List.flatMap_def, length_flatten_range fun _ _ => by rw [List.length_map, ih]]
    rfl

/-- The places are the positions that lie within the dimensions. -/
theorem mem_places {dims : Dims} {positions : List Nat} :
    positions ∈ places dims ↔ dims.Inside positions := by
  induction dims generalizing positions with
  | nil => simp [places, Inside]
  | cons dim rest ih =>
    simp only [Inside] at ih
    simp [places, Inside, List.forall₂_cons_left_iff, ih, eq_comm]

/-- The place at a position in row order. -/
theorem getElem?_places {dims : Dims} {positions : List Nat} (inside : dims.Inside positions) :
    (places dims)[dims.position positions]? = some positions := by
  induction inside with
  | nil => rfl
  | @cons dim k rest positions below within ih =>
    rw [places, position, List.flatMap_def, getElem?_flatten_range
      (fun _ _ => by rw [List.length_map, length_places]) below (position_lt within),
      List.getElem?_map, ih]
    rfl

/-- The numbers below a product, in rows of one length. -/
theorem range_mul (rows length : Nat) : List.range (rows * length) =
    (List.range rows).flatMap fun row => (List.range length).map (row * length + ·) := by
  induction rows with
  | zero => simp
  | succ rows ih =>
    rw [Nat.add_mul, Nat.one_mul, List.range_add, ih, List.range_succ, List.flatMap_append,
      List.flatMap_singleton]

/-- The places in order have the positions in order. -/
theorem map_position_places (dims : Dims) :
    (places dims).map dims.position = List.range dims.size := by
  induction dims with
  | nil => rfl
  | cons dim rest ih =>
    rw [places, size_cons, range_mul, List.map_flatMap, ← ih]
    simp only [List.map_map]
    rfl

variable {dims : Dims} {positions : List Nat}

/-- The positions along all dimensions, read off by their names. -/
theorem map_along (distinct : (dims.map Prod.fst).Nodup) (inside : dims.Inside positions) :
    (dims.map fun dim => dims.along positions dim.1) = positions := by
  induction inside with
  | nil => rfl
  | @cons dim k rest positions below within ih =>
    obtain ⟨fresh, distinct⟩ := List.nodup_cons.mp distinct
    have first : along (dim :: rest) (k :: positions) dim.1 = k := by simp [along]
    have others : ∀ other ∈ rest,
        along (dim :: rest) (k :: positions) other.1 = along rest positions other.1 := by
      intro other mem
      have differs : (other.1 == dim.1) = false :=
        beq_eq_false_iff_ne.mpr fun same => fresh (same ▸ List.mem_map_of_mem mem)
      simp [along, List.lookup_cons, differs]
    rw [List.map_cons, first, List.map_congr_left others, ih distinct]

/-- The position along a dimension lies within it. -/
theorem along_lt (distinct : (dims.map Prod.fst).Nodup) (inside : dims.Inside positions)
    {dim : String × Nat} (mem : dim ∈ dims) : dims.along positions dim.1 < dim.2 := by
  have within : dims.Inside (dims.map fun dim => dims.along positions dim.1) := by
    rwa [map_along distinct inside]
  exact List.forall₂_same.mp (List.forall₂_map_right_iff.mp within) dim mem

/-- The position along a dimension is the one that its name was given. -/
theorem along_map (place : String → Nat) {dim : String × Nat} (mem : dim ∈ dims) :
    dims.along (dims.map fun dim => place dim.1) dim.1 = place dim.1 := by
  induction dims with
  | nil => cases mem
  | cons first rest ih =>
    by_cases same : dim.1 = first.1
    · simp [along, same]
    · have differs : (dim.1 == first.1) = false := by simpa using same
      have later : dim ∈ rest := (List.mem_cons.mp mem).resolve_left fun same' => same (same' ▸ rfl)
      rw [← ih later]
      simp [along, List.lookup_cons, differs]

/-- There is no position along a dimension of another name. -/
theorem along_of_not_mem {name : String} (fresh : name ∉ dims.map Prod.fst) :
    dims.along positions name = 0 := by
  have none : ((dims.map Prod.fst).zip positions).lookup name = none := by
    rw [List.lookup_eq_none_iff]
    rintro ⟨other, k⟩ mem
    exact bne_iff_ne.mpr fun same => fresh (same ▸ (List.of_mem_zip mem).1)
  rw [along, none]
  rfl

/-- Positions are read off alike when the dimensions come in another order. -/
theorem along_of_perm {order : Dims} (perm : order.Perm dims) :
    order.along (order.map fun dim => dims.along positions dim.1) = dims.along positions := by
  funext name
  by_cases mem : name ∈ order.map Prod.fst
  · obtain ⟨dim, there, rfl⟩ := List.mem_map.mp mem
    exact along_map (dims.along positions) there
  · rw [along_of_not_mem mem, along_of_not_mem fun there => mem ((perm.map _).mem_iff.mpr there)]

/-- Whether a place along each named dimension lies within it. -/
def Within (dims : Dims) (place : String → Nat) : Prop := ∀ dim ∈ dims, place dim.1 < dim.2

/-- A place along each named dimension that lies within it. -/
theorem inside_map {place : String → Nat} :
    dims.Inside (dims.map fun dim => place dim.1) ↔ dims.Within place := by
  rw [Inside, List.forall₂_map_right_iff, List.forall₂_same]
  rfl

end Dims

/-- What a list keeps of a choice that is made for each of its elements stands where they stood. -/
theorem getElem?_filterMap_of_isSome {α β : Type} {choice : α → Option β} {l : List α}
    (total : ∀ x ∈ l, (choice x).isSome) (k : Nat) :
    (l.filterMap choice)[k]? = l[k]?.bind choice := by
  induction l generalizing k with
  | nil => rfl
  | cons x rest ih =>
    obtain ⟨y, chosen⟩ := Option.isSome_iff_exists.mp (total x List.mem_cons_self)
    rw [List.filterMap_cons_some chosen]
    cases k with
    | zero => exact chosen.symm
    | succ k => exact ih (fun x mem => total x (List.mem_cons_of_mem _ mem)) k

namespace DrawArray

variable {α : Type} {a : DrawArray α} {order : Dims}

/-- The value at a place depends on the positions along the dimensions of the array alone. -/
theorem get?_congr {place place' : String → Nat}
    (same : ∀ dim ∈ a.dims, place dim.1 = place' dim.1) : a.get? place = a.get? place' := by
  rw [get?_eq_element?, get?_eq_element?, List.map_congr_left same]

/-- A full array has a value at every place within its dimensions. -/
theorem IsFull.exists_get? (full : a.IsFull) {place : String → Nat}
    (within : a.dims.Within place) : ∃ x, a.get? place = some x := by
  rw [get?_eq_element?]
  exact full.exists_element? (Dims.inside_map.mpr within)

section Transpose

variable (full : a.IsFull) (distinct : (a.dims.map Prod.fst).Nodup) (perm : order.Perm a.dims)

include full distinct perm

/-- Each place in another order of the dimensions has a value. -/
theorem isSome_of_mem_places : ∀ positions ∈ Dims.places order,
    (a.get? (order.along positions)).isSome := by
  intro positions mem
  have distinct' : (order.map Prod.fst).Nodup := (perm.map _).nodup_iff.mpr distinct
  rw [Option.isSome_iff_exists]
  exact full.exists_get? fun dim there =>
    Dims.along_lt distinct' (Dims.mem_places.mp mem) (perm.mem_iff.mpr there)

/-- With its dimensions in another order an array is as full as before. -/
theorem isFull_transpose : (a.transpose order).IsFull := by
  rw [IsFull, transpose, List.size_toArray,
    List.filterMap_length_eq_length.mpr (isSome_of_mem_places full distinct perm),
    Dims.length_places]

/-- The value at a position along each dimension of the new order. -/
theorem element?_transpose {positions : List Nat} (inside : order.Inside positions) :
    (a.transpose order).element? positions = a.get? (order.along positions) := by
  rw [transpose, element?, List.getElem?_toArray,
    getElem?_filterMap_of_isSome (isSome_of_mem_places full distinct perm),
    Dims.getElem?_places inside, Option.bind_some]

/-- With its dimensions in another order an array has every value where it was. -/
theorem get?_transpose {place : String → Nat} (within : a.dims.Within place) :
    (a.transpose order).get? place = a.get? place := by
  have inside : order.Inside (order.map fun dim => place dim.1) :=
    Dims.inside_map.mpr fun dim mem => within dim (perm.mem_iff.mp mem)
  rw [get?_eq_element?]
  show (a.transpose order).element? (order.map fun dim => place dim.1) = _
  rw [element?_transpose full distinct perm inside]
  exact get?_congr fun dim mem => Dims.along_map place (perm.mem_iff.mpr mem)

end Transpose

/-- Whether an array holds draws: one chain or more with two draws or more each, and no two
dimensions of one name. -/
structure IsSampled (a : DrawArray α) : Prop where
  /-- There is a value for each place. -/
  full : a.IsFull
  /-- No two dimensions have one name. -/
  distinct : (a.dims.map Prod.fst).Nodup
  /-- There is a chain. -/
  chains : ∃ count ≥ 1, (chainDim, count) ∈ a.dims
  /-- Each chain has two draws or more. -/
  draws : ∃ count ≥ 2, (drawDim, count) ∈ a.dims

/-- The draws of all chains, each as a chain and a draw of it. -/
def samples (a : DrawArray α) : List (Nat × Nat) :=
  List.range ((a.dims.lookup chainDim).getD 0) ×ˢ List.range ((a.dims.lookup drawDim).getD 0)

/-- A place along the other dimensions, at one draw of one chain. -/
def atSample (place : String → Nat) (sample : Nat × Nat) (name : String) : Nat :=
  if name = chainDim then sample.1 else if name = drawDim then sample.2 else place name

/-- The draws of the element at a place along the other dimensions, over all chains. -/
def pool (a : DrawArray α) (place : String → Nat) : Multiset α :=
  (a.samples : Multiset (Nat × Nat)).filterMap fun sample => a.get? (atSample place sample)

variable {place : String → Nat}

/-- The dimensions with those of chains and draws in front. -/
theorem IsSampled.perm_dims (sampled : a.IsSampled) :
    (a.dims.sample ++ a.dims.extra).Perm a.dims := by
  obtain ⟨chains, -, first⟩ := sampled.chains
  obtain ⟨draws, -, second⟩ := sampled.draws
  have left := Entries.lookup_of_mem sampled.distinct first
  have right := Entries.lookup_of_mem sampled.distinct second
  have sample : a.dims.sample = [(chainDim, chains), (drawDim, draws)] := by
    rw [Dims.sample, left, right]
    rfl
  have distinct : a.dims.Nodup := .of_map _ sampled.distinct
  rw [sample, List.perm_ext_iff_of_nodup _ distinct]
  · rintro ⟨name, count⟩
    constructor
    · intro mem
      simp only [List.cons_append, List.nil_append, List.mem_cons, Prod.mk.injEq] at mem
      obtain ⟨rfl, rfl⟩ | ⟨rfl, rfl⟩ | mem := mem
      · exact first
      · exact second
      · exact List.mem_of_mem_filter mem
    · intro mem
      have known := Entries.lookup_of_mem sampled.distinct mem
      by_cases chain : name = chainDim
      · simp_all
      by_cases draw : name = drawDim
      · simp_all
      · simp [Dims.extra, mem, chain, draw]
  · have other : chainDim ≠ drawDim := by decide
    simp [Dims.extra, other, distinct.filter]

/-- Each draw of each chain has a place. -/
theorem IsSampled.within (sampled : a.IsSampled) (within : a.dims.extra.Within place)
    {sample : Nat × Nat} (mem : sample ∈ a.samples) : a.dims.Within (atSample place sample) := by
  obtain ⟨first, second⟩ := List.mem_product.mp mem
  rw [List.mem_range] at first second
  rintro ⟨name, count⟩ there
  have known := Entries.lookup_of_mem sampled.distinct there
  show atSample place sample name < count
  rw [atSample]
  split
  · rename_i chain
    simpa [← chain, known] using first
  split
  · rename_i _ draw
    simpa [← draw, known] using second
  · rename_i other other'
    exact within (name, count) (List.mem_filter.mpr ⟨there, by simp [other, other']⟩)

/-- The places of the draws of all chains. -/
theorem places_sample (a : DrawArray α) :
    Dims.places a.dims.sample = a.samples.map fun sample => [sample.1, sample.2] := by
  simp [Dims.sample, Dims.places, samples, SProd.sprod, List.product, List.map_flatMap,
    Function.comp_def]
  simp only [List.map_eq_flatMap]

/-- The positions with those of chain and draw in front, read off by names. -/
theorem along_sample (extra : Dims) (chain draw : Nat) (positions : List Nat) :
    (a.dims.sample ++ extra).along (chain :: draw :: positions) =
      atSample (extra.along positions) (chain, draw) := by
  funext name
  by_cases chain : name = chainDim
  · simp [Dims.sample, Dims.along, atSample, chain]
  by_cases draw : name = drawDim
  · simp [Dims.sample, Dims.along, atSample, List.lookup_cons, draw, chainDim, drawDim]
  · have differs : (name == chainDim) = false := beq_eq_false_iff_ne.mpr chain
    have differs' : (name == drawDim) = false := beq_eq_false_iff_ne.mpr draw
    simp [Dims.sample, Dims.along, atSample, List.lookup_cons, chain, draw, differs, differs']

/-- With chains and draws in front, each column of an array has the draws of one element. -/
theorem IsSampled.columns_transpose (sampled : a.IsSampled) :
    Summary.columns (Dims.size a.dims.sample) (Dims.size a.dims.extra)
        (a.transpose (a.dims.sample ++ a.dims.extra)).values =
      (Dims.places a.dims.extra).map fun positions =>
        a.samples.filterMap fun sample =>
          a.get? (atSample (a.dims.extra.along positions) sample) := by
  rw [Summary.columns, ← Dims.map_position_places, ← Dims.map_position_places, List.map_map]
  refine List.map_congr_left fun positions mem => ?_
  have extra := Dims.mem_places.mp mem
  rw [Function.comp_apply, List.filterMap_map, places_sample, List.filterMap_map]
  refine List.filterMap_congr fun sample mem => ?_
  have inside : Dims.Inside a.dims.sample [sample.1, sample.2] := by
    rw [← Dims.mem_places, places_sample]
    exact List.mem_map_of_mem mem
  -- A row belongs to a draw of a chain and a column to an element: together they are one place.
  show (a.transpose _).values[a.dims.sample.position [sample.1, sample.2] * Dims.size a.dims.extra +
    a.dims.extra.position positions]? = _
  rw [← Dims.position_append inside, ← along_sample]
  exact element?_transpose sampled.full sampled.distinct sampled.perm_dims
    (List.rel_append inside extra)

end DrawArray

end Multilevel
