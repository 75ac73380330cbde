import Mathlib
import Multilevel.Data.Order
import Multilevel.Proofs.Data.Cleaning

/-!
# Tables in order

Keys are ordered linearly, missing ones last, and lists of keys by their first difference. Rows
that are put in the order of several columns stand in the order of their lists of keys
(`Frame.isOrderedBy_sortBy`).
-/
namespace Multilevel

namespace Key

/-- Of two keys, one comes before the other or ties with it. -/
theorem le_total (a b : Key) : a.le b = true ∨ b.le a = true := by
  rcases a with (_ | _) | x | s <;> rcases b with (_ | _) | y | t <;> simp [le]
  · exact Rat.le_total
  · exact String.le_total s t

/-- A key that comes before another one comes before all that this one comes before. -/
theorem le_trans {a b c : Key} (first : a.le b = true) (second : b.le c = true) :
    a.le c = true := by
  rcases a with (_ | _) | x | s <;> rcases b with (_ | _) | y | t <;>
    rcases c with (_ | _) | z | u <;> simp_all [le]
  · exact Rat.le_trans first second
  · exact String.le_trans first second

/-- Different keys do not tie. -/
theorem le_antisymm {a b : Key} (first : a.le b = true) (second : b.le a = true) : a = b := by
  rcases a with (_ | _) | x | s <;> rcases b with (_ | _) | y | t <;> simp_all [le]
  · exact Rat.le_antisymm first second
  · exact String.le_antisymm first second

/-- Of two keys that may be missing, one comes before the other or ties with it. -/
theorem leMissing_total (a b : Option Key) : leMissing a b = true ∨ leMissing b a = true := by
  cases a <;> cases b <;> simp [leMissing, le_total]

/-- A key that may be missing ties with itself. -/
theorem leMissing_refl (a : Option Key) : leMissing a a = true := by
  rcases leMissing_total a a with here | here <;> exact here

/-- The order of keys that may be missing is transitive. -/
theorem leMissing_trans {a b c : Option Key} (first : leMissing a b = true)
    (second : leMissing b c = true) : leMissing a c = true := by
  cases a <;> cases b <;> cases c <;> simp_all [leMissing]
  exact le_trans first second

/-- Different keys that may be missing do not tie. -/
theorem leMissing_antisymm {a b : Option Key} (first : leMissing a b = true)
    (second : leMissing b a = true) : a = b := by
  cases a <;> cases b <;> simp_all [leMissing]
  exact le_antisymm first second

/-- The first keys of ordered lists are ordered. -/
theorem leMissing_of_leList {a b : Option Key} {as bs : List (Option Key)}
    (ordered : leList (a :: as) (b :: bs) = true) : leMissing a b = true := by
  rw [leList] at ordered
  by_cases same : a = b
  · rw [same]
    exact leMissing_refl b
  · rwa [if_neg same] at ordered

/-- Behind a key that they share, ordered lists are ordered. -/
theorem leList_of_leList_cons {a : Option Key} {as bs : List (Option Key)}
    (ordered : leList (a :: as) (a :: bs) = true) : leList as bs = true := by
  rwa [leList, if_pos rfl] at ordered

variable {α : Type}

/-- Of two lists of keys of the same things, one comes before the other or ties with it. -/
theorem leList_total (items : List α) (f g : α → Option Key) :
    leList (items.map f) (items.map g) = true ∨ leList (items.map g) (items.map f) = true := by
  induction items with
  | nil => exact .inl rfl
  | cons item rest ih =>
    simp only [List.map_cons, leList]
    by_cases same : f item = g item
    · simpa only [same, if_true] using ih
    · rw [if_neg same, if_neg fun equal => same equal.symm]
      exact leMissing_total _ _

/-- The order of lists of keys of the same things is transitive. -/
theorem leList_trans {items : List α} {f g h : α → Option Key}
    (first : leList (items.map f) (items.map g) = true)
    (second : leList (items.map g) (items.map h) = true) :
    leList (items.map f) (items.map h) = true := by
  induction items with
  | nil => rfl
  | cons item rest ih =>
    simp only [List.map_cons, leList] at first second ⊢
    by_cases left : f item = g item
    · by_cases right : g item = h item
      · rw [if_pos left] at first
        rw [if_pos right] at second
        rw [if_pos (left.trans right)]
        exact ih first second
      · rw [if_neg right] at second
        rw [left, if_neg right]
        exact second
    · rw [if_neg left] at first
      by_cases right : g item = h item
      · rw [← right, if_neg left]
        exact first
      · rw [if_neg right] at second
        -- Two keys that both differ from the one between them are different.
        have differ : f item ≠ h item := fun same =>
          left (leMissing_antisymm first (same ▸ second))
        rw [if_neg differ]
        exact leMissing_trans first second

/-- Lists of keys of the same things that come before each other are equal. -/
theorem leList_antisymm {items : List α} {f g : α → Option Key}
    (first : leList (items.map f) (items.map g) = true)
    (second : leList (items.map g) (items.map f) = true) : items.map f = items.map g := by
  induction items with
  | nil => rfl
  | cons item rest ih =>
    have same : f item = g item :=
      leMissing_antisymm (leMissing_of_leList first) (leMissing_of_leList second)
    rw [List.map_cons, List.map_cons, same] at first second ⊢
    rw [ih (leList_of_leList_cons first) (leList_of_leList_cons second)]

end Key

namespace Frame

/-- The keys of a row in several columns. -/
def keysOf {rows : Nat} (columns : List (Column rows)) (row : Fin rows) : List (Option Key) :=
  columns.map fun column => column.key? row

/-- Whether the rows of a table stand in the order of some of its columns. -/
def IsOrderedBy (frame : Frame) (names : List String) : Prop :=
  ∃ columns : List (Column frame.rows),
    List.Forall₂ (fun name column => frame.column? name = some column) names columns ∧
      ∀ i j, i < j → Key.leList (keysOf columns i) (keysOf columns j) = true

/-- Ordered rows are all rows. -/
theorem orderedRows_perm (frame : Frame) (columns : List (Column frame.rows)) :
    (frame.orderedRows columns).Perm (List.finRange frame.rows) :=
  List.mergeSort_perm _ _

/-- Of two rows one comes first, or they tie. -/
theorem leList_keysOf_total {rows : Nat} (columns : List (Column rows)) (a b : Fin rows) :
    (Key.leList (keysOf columns a) (keysOf columns b) ||
      Key.leList (keysOf columns b) (keysOf columns a)) = true := by
  rw [Bool.or_eq_true]
  exact Key.leList_total columns (fun column => column.key? a) fun column => column.key? b

/-- What comes before a row comes before all that it comes before. -/
theorem leList_keysOf_trans {rows : Nat} (columns : List (Column rows)) (a b c : Fin rows)
    (first : Key.leList (keysOf columns a) (keysOf columns b) = true)
    (second : Key.leList (keysOf columns b) (keysOf columns c) = true) :
    Key.leList (keysOf columns a) (keysOf columns c) = true :=
  Key.leList_trans first second

/-- Ordered rows stand in the order of their keys. -/
theorem pairwise_orderedRows (frame : Frame) (columns : List (Column frame.rows)) :
    (frame.orderedRows columns).Pairwise fun a b =>
      Key.leList (keysOf columns a) (keysOf columns b) = true :=
  List.pairwise_mergeSort (leList_keysOf_trans columns) (leList_keysOf_total columns)
    (List.finRange frame.rows)

/-- The keys of picked rows are those of the rows. -/
theorem keysOf_pick {rows : Nat} (columns : List (Column rows)) (chosen : List (Fin rows))
    (row : Fin chosen.length) :
    keysOf (columns.map fun column => column.pick chosen) row = keysOf columns (chosen.get row) := by
  simp only [keysOf, List.map_map, Function.comp_def, Column.key?_pick]
  rfl

/-- Columns that are found in a table are found in picked rows of it, their rows picked. -/
theorem found_pick {frame : Frame} {names : List String} {columns : List (Column frame.rows)}
    (found : List.Forall₂ (fun name column => frame.column? name = some column) names columns)
    (chosen : List (Fin frame.rows)) :
    List.Forall₂ (fun name column => (frame.pick chosen).column? name = some column) names
      (columns.map fun column => column.pick chosen) :=
  List.forall₂_map_right_iff.mpr (found.imp fun _ _ here =>
    (column?_pick ..).trans (congrArg _ here))

/-- Rows that are picked in the order of some columns stand in it. -/
theorem isOrderedBy_pick {frame : Frame} {names : List String}
    {columns : List (Column frame.rows)}
    (found : List.Forall₂ (fun name column => frame.column? name = some column) names columns)
    {chosen : List (Fin frame.rows)} (ordered : chosen.Pairwise fun a b =>
      Key.leList (keysOf columns a) (keysOf columns b) = true) :
    (frame.pick chosen).IsOrderedBy names := by
  refine ⟨_, found_pick found chosen, fun i j before => ?_⟩
  have here := List.pairwise_iff_getElem.mp ordered i j i.isLt j.isLt before
  exact (keysOf_pick columns chosen i).symm ▸ (keysOf_pick columns chosen j).symm ▸ here

/-- Putting rows in order picks the ordered rows. -/
theorem sortBy_orderedRows {frame sorted : Frame} {names : List String}
    (done : frame.sortBy names = .ok sorted) : ∃ columns : List (Column frame.rows),
      List.Forall₂ (fun name column => frame.column? name = some column) names columns ∧
        sorted = frame.pick (frame.orderedRows columns) := by
  simp only [sortBy, bind_eq_ok, mapM_eq_ok, column_eq_ok] at done
  obtain ⟨columns, found, done⟩ := done
  refine ⟨columns, found, ?_⟩
  split at done <;> simp only [throw_bind, ite_throw_eq_ok, pure_eq_ok] at done <;>
    exact done.2.symm

/-- Rows that were put in the order of some columns stand in it. -/
theorem isOrderedBy_sortBy {frame sorted : Frame} {names : List String}
    (done : frame.sortBy names = .ok sorted) : sorted.IsOrderedBy names := by
  obtain ⟨columns, found, rfl⟩ := sortBy_orderedRows done
  exact isOrderedBy_pick found (frame.pairwise_orderedRows columns)

end Frame

/-- The rows of a table that an autoregressive structure has ordered stand in its order. -/
theorem Autocorrelation.isOrderedBy_orderRows {a : Autocorrelation} {frame ordered : Frame}
    (done : a.orderRows frame = .ok ordered) : ordered.IsOrderedBy a.keys := by
  unfold orderRows at done
  split at done
  · rename_i none
    obtain rfl := Except.ok.inj done
    rw [List.isEmpty_iff.mp none]
    exact ⟨[], .nil, fun _ _ _ => rfl⟩
  · exact Frame.isOrderedBy_sortBy done

end Multilevel
