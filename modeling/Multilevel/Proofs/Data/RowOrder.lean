import Multilevel.Proofs.Data.Time
import Multilevel.Proofs.EndAlike

/-!
# Rows in another order

Picking rows does to a table what it does to each of its rows. What is made of a column as a whole
depends on its cells, whatever their order: where all rows are picked, levels are the same, and a
factor made of the picked rows is the factor, its rows picked (`Column.asFactor_pick`). Cells that
stand for no numbers fail wherever they are met, though it depends on the order which one fails first
(`Column.numbers_pick`).
-/
namespace Multilevel

/-- Rows that are all rows in some order are all rows. -/
theorem mem_of_perm {rows : Nat} {chosen : List (Fin rows)}
    (perm : chosen.Perm (List.finRange rows)) (row : Fin rows) : row ∈ chosen :=
  perm.mem_iff.mpr (List.mem_finRange row)

/-- Whether a vector has the elements of another one at the rows that are picked. -/
def IsPicked {α : Type} {rows : Nat} (chosen : List (Fin rows)) (given : Vector α rows)
    (picked : Vector α chosen.length) : Prop :=
  ∀ row, picked.get row = given.get (chosen.get row)

namespace IsPicked

variable {α β γ : Type} {rows : Nat} {chosen : List (Fin rows)} {given : Vector α rows}
  {picked : Vector α chosen.length} {given' : Vector β rows} {picked' : Vector β chosen.length}

/-- The picked elements in their order. -/
theorem toList (same : IsPicked chosen given picked) :
    picked.toList = chosen.map fun row => given.get row := by
  refine List.ext_getElem (by simp) fun i inside _ => ?_
  simpa [Vector.get_eq_getElem] using same ⟨i, by simpa using inside⟩

/-- Where all rows are picked, the picked elements are the elements. -/
theorem mem_iff (same : IsPicked chosen given picked) (all : ∀ row, row ∈ chosen) {x : α} :
    x ∈ picked.toList ↔ x ∈ given.toList := by
  rw [same.toList, List.mem_map]
  simp only [all, true_and, Vector.mem_toList_iff, Vector.mem_iff_getElem, Fin.exists_iff,
    Vector.get_eq_getElem]

/-- A test of all elements does not depend on their order. -/
theorem all_eq (same : IsPicked chosen given picked) (all : ∀ row, row ∈ chosen)
    (test : α → Bool) : picked.toList.all test = given.toList.all test := by
  rw [Bool.eq_iff_iff]
  simp only [List.all_eq_true, same.mem_iff all]

/-- A search among all elements does not depend on their order. -/
theorem any_eq (same : IsPicked chosen given picked) (all : ∀ row, row ∈ chosen)
    (test : α → Bool) : picked.toList.any test = given.toList.any test := by
  rw [Bool.eq_iff_iff]
  simp only [List.any_eq_true, same.mem_iff all]

/-- Values of picked elements are picked among the values of the elements. -/
theorem map (same : IsPicked chosen given picked) (f : α → β) :
    IsPicked chosen (given.map f) (picked.map f) := by
  intro row
  have own := same row
  simp only [Vector.get_eq_getElem, Vector.getElem_map] at own ⊢
  rw [own]

/-- Picked elements of two vectors meet as those that they are. -/
theorem zipWith (same : IsPicked chosen given picked) (same' : IsPicked chosen given' picked')
    (f : α → β → γ) : IsPicked chosen (given.zipWith f given') (picked.zipWith f picked') := by
  intro row
  have own := same row
  have other := same' row
  simp only [Vector.get_eq_getElem, Vector.getElem_zipWith] at own other ⊢
  rw [own, other]

/-- All elements of a constant vector are the same. -/
theorem replicate (chosen : List (Fin rows)) (x : α) :
    IsPicked chosen (Vector.replicate rows x) (Vector.replicate chosen.length x) := by
  intro row
  simp [Vector.get_eq_getElem]

/-- Elements that are listed for the picked rows are picked. -/
theorem ofFn (chosen : List (Fin rows)) (given : Vector α rows) :
    IsPicked chosen given (.ofFn fun row => given.get (chosen.get row)) := by
  intro row
  simp [Vector.get_eq_getElem]

end IsPicked

namespace Column

variable {m n k rows : Nat} {chosen : List (Fin rows)}

/-- The column whose rows have the cells of the rows that they come from. -/
def along (column : Column m) (origin : Fin n → Fin m) : Column n :=
  match column with
  | float cells => float (.ofFn fun row => cells.get (origin row))
  | int cells => int (.ofFn fun row => cells.get (origin row))
  | unsigned cells => unsigned (.ofFn fun row => cells.get (origin row))
  | bool cells => bool (.ofFn fun row => cells.get (origin row))
  | text cells => text (.ofFn fun row => cells.get (origin row))
  | mixed cells => mixed (.ofFn fun row => cells.get (origin row))
  | factor levels codes => factor levels (.ofFn fun row => codes.get (origin row))

/-- Picked rows come from those that are picked. -/
theorem pick_eq_along (column : Column rows) (chosen : List (Fin rows)) :
    column.pick chosen = column.along chosen.get := by
  have picked {α : Type} (cells : Vector α rows) :
      (⟨(chosen.map fun row => cells[row]).toArray, by simp⟩ : Vector α chosen.length) =
        .ofFn fun row => cells.get (chosen.get row) := by
    ext i bound
    simp [Vector.get_eq_getElem]
  cases column <;> simp only [pick, along, picked]

/-- Rows come from where those come from that they come from. -/
theorem along_along (column : Column m) (first : Fin n → Fin m) (second : Fin k → Fin n) :
    (column.along first).along second = column.along (first ∘ second) := by
  cases column <;> simp [along, Vector.get_eq_getElem]

/-- What some cell has is what some picked cell has, if all rows are picked. -/
theorem exists_pick_iff (all : ∀ row, row ∈ chosen) (holds : Fin rows → Prop) :
    (∃ row : Fin chosen.length, holds (chosen.get row)) ↔ ∃ row, holds row := by
  constructor
  · rintro ⟨row, here⟩
    exact ⟨_, here⟩
  · rintro ⟨row, here⟩
    obtain ⟨i, rfl⟩ := List.mem_iff_get.mp (all row)
    exact ⟨i, here⟩

/-- The same levels occur in all rows, in whatever order they are picked. -/
theorem exists_level?_pick_iff (column : Column rows) (all : ∀ row, row ∈ chosen) (text : String) :
    (∃ row, (column.pick chosen).level? row = some text) ↔
      ∃ row, column.level? row = some text := by
  simp only [level?_pick]
  exact exists_pick_iff all fun row => column.level? row = some text

/-- The levels of a factor that occur in it do not depend on the order of its rows. -/
theorem presentLevels_pick (column : Column rows) (all : ∀ row, row ∈ chosen)
    (levels : List String) :
    (column.pick chosen).presentLevels levels = column.presentLevels levels := by
  unfold presentLevels
  refine List.filter_congr fun text _ => ?_
  rw [Bool.eq_iff_iff]
  simpa using column.exists_level?_pick_iff all text

/-- The sorted levels of a column do not depend on the order of its rows. -/
theorem sortedLevels_pick (column : Column rows) (all : ∀ row, row ∈ chosen) :
    (column.pick chosen).sortedLevels = column.sortedLevels := by
  refine List.Perm.eq_of_pairwise (fun _ _ _ _ => String.le_antisymm)
    (pairwise_sortedLevels _) (pairwise_sortedLevels _) ?_
  refine (List.perm_ext_iff_of_nodup (nodup_sortedLevels _) (nodup_sortedLevels _)).mpr fun text => ?_
  rw [mem_sortedLevels, mem_sortedLevels]
  exact column.exists_level?_pick_iff all text

/-- The factor of picked rows with given levels. -/
theorem withLevels_pick (column : Column rows) (chosen : List (Fin rows)) (levels : List String) :
    (column.pick chosen).withLevels levels = (column.withLevels levels).pick chosen := by
  simp only [withLevels, level?_pick]
  rw [pick_eq_along, along]
  simp [Vector.get_eq_getElem]

/-- A column that is no factor becomes one unless a cell is missing. -/
theorem asFactor_of_plain {column : Column rows} (plain : column.levels? = none) :
    column.asFactor = if (List.finRange rows).any column.isMissing then
        if column.sortedLevels.isEmpty then .error .unconvertible else .error .unsupported
      else .ok (column.withLevels column.sortedLevels) := by
  cases column <;> first | rfl | cases plain

/-- A factor is made of rows in any order as it is made of the rows. -/
theorem asFactor_pick (column : Column rows) (all : ∀ row, row ∈ chosen) :
    (column.pick chosen).asFactor = column.asFactor.map fun factor => factor.pick chosen := by
  cases given : column.levels? with
  | some levels =>
    cases column with
    | factor levels codes =>
      have own : ((factor levels codes).pick chosen).asFactor =
          let kept := ((factor levels codes).pick chosen).presentLevels levels
          if kept.eraseDups.length = kept.length
          then .ok (((factor levels codes).pick chosen).withLevels kept)
          else .error .unconvertible := rfl
      rw [own, asFactor]
      dsimp only
      rw [presentLevels_pick _ all, withLevels_pick]
      split <;> rfl
    | _ => cases given
  | none =>
    have missing : (List.finRange chosen.length).any (column.pick chosen).isMissing =
        (List.finRange rows).any column.isMissing := by
      rw [Bool.eq_iff_iff]
      simpa [isMissing_pick] using exists_pick_iff all fun row => column.isMissing row = true
    rw [asFactor_of_plain given, asFactor_of_plain ((levels?_pick _ _).trans given), missing,
      sortedLevels_pick _ all, withLevels_pick]
    split
    · split <;> rfl
    · rfl

/-- Whether a cell has parts does not depend on the order of the rows. -/
theorem hasCompound_pick (column : Column rows) (all : ∀ row, row ∈ chosen) :
    (column.pick chosen).hasCompound = column.hasCompound := by
  cases column with
  | mixed cells =>
    have cell (row : Fin chosen.length) : (⟨(chosen.map fun row => cells[row]).toArray,
        by simp⟩ : Vector Value chosen.length)[row] = cells[chosen.get row] := by simp
    rw [pick, hasCompound, hasCompound, Bool.eq_iff_iff, Vector.any_eq_true, Vector.any_eq_true]
    have moved := exists_pick_iff all fun row => cells[row].isCompound = true
    simp only [← cell, Fin.exists_iff] at moved
    exact moved
  | _ => rfl

/-- The number that the cell of a row stands for. -/
def numberAt (column : Column rows) (row : Fin rows) : Except Fault Float :=
  let ofText (cell : Option String) : Except Fault Float :=
    match cell with
    | some written => numberOfText written
    | none => .ok (0.0 / 0.0)
  match column with
  | float cells => .ok (cells.get row)
  | int cells | unsigned cells => .ok (Number.ofInt (cells.get row))
  | bool cells => .ok (if cells.get row then 1.0 else 0.0)
  | text cells => ofText (cells.get row)
  | mixed cells => numberOfValue (cells.get row)
  | factor levels codes => ofText ((codes.get row).map levels.get)

/-- The numbers of a column are those of its cells. -/
theorem toList_numbers (column : Column rows) :
    column.numbers.map Vector.toList = (List.finRange rows).mapM column.numberAt := by
  have cells {α : Type} (v : Vector α rows) : v.toList = (List.finRange rows).map v.get := by
    refine List.ext_getElem (by simp) fun i _ _ => by simp [Vector.get_eq_getElem]
  have each {α : Type} (v : Vector α rows) (f : α → Except Fault Float) :
      (v.mapM f).map Vector.toList = (List.finRange rows).mapM fun row => f (v.get row) := by
    have listed : Vector.toList <$> v.mapM f = v.toList.mapM f := by
      rw [← Vector.toList_toArray, ← Array.toList_mapM, ← Vector.toArray_mapM, Functor.map_map]
      rfl
    exact listed.trans (by rw [cells, List.mapM_map]; rfl)
  have plain {α : Type} (v : Vector α rows) (f : α → Float) :
      Except.ok (v.map f).toList = (List.finRange rows).mapM fun row =>
        (.ok (f (v.get row)) : Except Fault Float) := by
    refine Eq.symm (mapM_eq_ok.mpr ?_)
    rw [Vector.toList_map, cells, List.map_map]
    exact List.forall₂_map_right_iff.mpr (List.forall₂_same.mpr fun _ _ => rfl)
  cases column with
  | float v =>
    have own := plain v id
    rw [Vector.map_id] at own
    exact own
  | int v | unsigned v => exact plain v _
  | bool v => exact plain v fun b => if b then 1.0 else 0.0
  | text v => exact each v _
  | mixed v => exact each v _
  | factor levels codes => exact each codes _

/-- The cell of a picked row stands for the number of its origin. -/
theorem numberAt_pick (column : Column rows) (chosen : List (Fin rows)) (row : Fin chosen.length) :
    (column.pick chosen).numberAt row = column.numberAt (chosen.get row) := by
  cases column <;> simp [pick, numberAt, Vector.get_eq_getElem]

/-- A column has numbers exactly if each of its cells stands for its own. -/
theorem numbers_eq_ok_iff {column : Column rows} {values : Vector Float rows} :
    column.numbers = .ok values ↔ ∀ row, column.numberAt row = .ok (values.get row) := by
  have listed : column.numbers = .ok values ↔
      column.numbers.map Vector.toList = .ok values.toList := by
    cases column.numbers with
    | ok own => simp [Except.map, Vector.toList_inj]
    | error => simp [Except.map]
  rw [listed, toList_numbers, mapM_eq_ok, List.forall₂_iff_get]
  simp [Vector.get_eq_getElem, Fin.forall_iff]

/-- The error of a column that has no numbers is that of one of its cells. -/
theorem exists_of_numbers_eq_error {column : Column rows} {fault : Fault}
    (failed : column.numbers = .error fault) : ∃ row, column.numberAt row = .error fault := by
  have listed : (List.finRange rows).mapM column.numberAt = .error fault := by
    rw [← toList_numbers, failed]
    rfl
  obtain ⟨row, _, own⟩ := exists_of_mapM_eq_error listed
  exact ⟨row, own⟩

/-- Where all rows are picked, the picked rows have the numbers of those they come from, or both
columns have no numbers because of some cell. -/
theorem numbers_pick (column : Column rows) (all : ∀ row, row ∈ chosen) :
    EndTogether (fun fault fault' => (∃ row, column.numberAt row = .error fault) ∧
        ∃ row, column.numberAt row = .error fault')
      (IsPicked chosen) column.numbers (column.pick chosen).numbers := by
  cases given : column.numbers with
  | ok values =>
    have picked : (column.pick chosen).numbers =
        .ok (.ofFn fun row => values.get (chosen.get row)) := by
      refine numbers_eq_ok_iff.mpr fun row => ?_
      rw [numberAt_pick, numbers_eq_ok_iff.mp given]
      simp [Vector.get_eq_getElem]
    rw [picked]
    exact .ok (.ofFn chosen values)
  | error fault =>
    obtain ⟨row, own⟩ := exists_of_numbers_eq_error given
    cases picked : (column.pick chosen).numbers with
    | ok values =>
      obtain ⟨i, rfl⟩ := List.mem_iff_get.mp (all row)
      have other := numbers_eq_ok_iff.mp picked i
      rw [numberAt_pick] at other
      cases own.symm.trans other
    | error fault' =>
      obtain ⟨i, other⟩ := exists_of_numbers_eq_error picked
      rw [numberAt_pick] at other
      exact .error ⟨⟨row, own⟩, _, other⟩

end Column

namespace Frame

variable {n : Nat}

/-- The table whose rows are those that they come from. -/
def along (frame : Frame) (origin : Fin n → Fin frame.rows) : Frame :=
  ⟨n, frame.columns.map fun (name, column) => (name, column.along origin)⟩

/-- Picked rows come from those that are picked. -/
theorem pick_eq_along (frame : Frame) (chosen : List (Fin frame.rows)) :
    frame.pick chosen = frame.along chosen.get := by
  simp only [pick, along, Column.pick_eq_along]

/-- Rows of picked rows are rows. -/
theorem pick_pick (frame : Frame) (first : List (Fin frame.rows))
    (second : List (Fin first.length)) :
    (frame.pick first).pick second = frame.pick (second.map first.get) := by
  have same {count : Nat} (origin : Fin count → Fin frame.rows) (size : second.length = count)
      (each : ∀ row : Fin second.length, origin (row.cast size) = first.get (second.get row)) :
      (frame.pick first).pick second = frame.along origin := by
    subst size
    obtain rfl : origin = first.get ∘ second.get := funext each
    simp [pick, along, Column.pick_eq_along, Column.along_along]
  rw [frame.pick_eq_along (second.map first.get)]
  exact same _ (List.length_map _).symm fun row => by simp

variable {frame : Frame} {chosen : List (Fin frame.rows)}

/-- Whether the cells of a row under some names are all there. -/
def isCompleteIn (frame : Frame) (names : List String) (row : Fin frame.rows) : Bool :=
  names.all fun name => (frame.column? name).all fun column => !column.isMissing row

/-- The columns of some names, found in a table. -/
theorem select_eq_ok_iff {names : List String} {needed : Frame} :
    frame.select names = .ok needed ↔ ∃ columns : List (String × Column frame.rows),
      needed = ⟨frame.rows, columns⟩ ∧ List.Forall₂ (fun name entry =>
        entry.1 = name ∧ frame.column? name = some entry.2) names columns := by
  simp only [select, bind_eq_ok, pure_eq_ok, mapM_eq_ok]
  have each (name : String) (entry : String × Column frame.rows) :
      (∃ column, frame.column name = .ok column ∧ (name, column) = entry) ↔
        entry.1 = name ∧ frame.column? name = some entry.2 := by
    simp only [column_eq_ok]
    constructor
    · rintro ⟨column, found, rfl⟩
      exact ⟨rfl, found⟩
    · rintro ⟨rfl, found⟩
      exact ⟨_, found, rfl⟩
  simp only [each]
  constructor
  · rintro ⟨columns, found, rfl⟩
    exact ⟨columns, rfl, found⟩
  · rintro ⟨columns, rfl, found⟩
    exact ⟨columns, found, rfl⟩

/-- Columns that are found have rows that are complete where the table is complete under their
names. -/
theorem isComplete_of_select {names : List String} {columns : List (String × Column frame.rows)}
    (selected : frame.select names = .ok ⟨frame.rows, columns⟩) (row : Fin frame.rows) :
    isComplete ⟨frame.rows, columns⟩ row = frame.isCompleteIn names row := by
  obtain ⟨own, same, found⟩ := select_eq_ok_iff.mp selected
  obtain rfl : columns = own := by simpa using same
  clear selected same
  unfold isComplete isCompleteIn
  dsimp only
  induction found with
  | nil => rfl
  | cons first _ ih => rw [List.all_cons, List.all_cons, ih, first.2, Option.all_some]

/-- A column of picked rows is found if it is one of the rows. -/
theorem column_pick (frame : Frame) (chosen : List (Fin frame.rows)) (name : String) :
    EndAlike (fun given (picked : Column chosen.length) => picked = given.pick chosen)
      (frame.column name) ((frame.pick chosen).column name) := by
  unfold column
  rw [column?_pick]
  cases frame.column? name with
  | none => exact .error _
  | some => exact .ok rfl

/-- Of picked rows the same columns are found, their rows picked. -/
theorem select_pick (frame : Frame) (chosen : List (Fin frame.rows)) (names : List String) :
    EndAlike (fun needed needed' => ∃ columns : List (String × Column frame.rows),
        needed = ⟨frame.rows, columns⟩ ∧ needed' = pick ⟨frame.rows, columns⟩ chosen)
      (frame.select names) ((frame.pick chosen).select names) := by
  have columns : EndAlike (fun found (picked : List (String × Column chosen.length)) =>
        picked = found.map fun entry => (entry.1, entry.2.pick chosen))
      (names.mapM fun name => do return (name, ← frame.column name))
      ((names.map id).mapM fun name => do return (name, ← (frame.pick chosen).column name)) :=
    .mapM_map fun name _ =>
      (frame.column_pick chosen name).bind fun _ _ same => .pure (congrArg _ same)
  rw [List.map_id] at columns
  exact columns.bind fun columns _ same => .pure ⟨columns, rfl, congrArg _ same⟩

/-- Whether rows differ in the keys of some columns. -/
def IsKeyedBy (frame : Frame) (names : List String) : Prop :=
  ∃ columns : List (Column frame.rows),
    List.Forall₂ (fun name column => frame.column? name = some column) names columns ∧
      Function.Injective (keysOf columns)

/-- The columns that are found in picked rows are those of the rows. -/
theorem exists_of_found_pick {names : List String} {picked : List (Column chosen.length)}
    (found : List.Forall₂ (fun name column => (frame.pick chosen).column? name = some column) names
      picked) : ∃ columns : List (Column frame.rows),
      List.Forall₂ (fun name column => frame.column? name = some column) names columns ∧
        picked = columns.map fun column => column.pick chosen := by
  induction found with
  | nil => exact ⟨[], .nil, rfl⟩
  | cons first _ ih =>
    obtain ⟨column, here, rfl⟩ := frame.of_column?_pick first
    obtain ⟨columns, others, rfl⟩ := ih
    exact ⟨column :: columns, .cons here others, rfl⟩

/-- Whether rows differ in their keys is decided by comparing them. -/
instance (frame : Frame) (names : List String) : Decidable (frame.IsKeyedBy names) :=
  match listed : names.mapM frame.column with
  | .ok columns => decidable_of_iff (Function.Injective (keysOf columns)) <| by
      have found (others : List (Column frame.rows)) : List.Forall₂ (fun name column =>
          frame.column? name = some column) names others ↔ names.mapM frame.column = .ok others := by
        simp only [mapM_eq_ok, column_eq_ok]
      simp [IsKeyedBy, found, listed]
  | .error e => isFalse fun ⟨columns, found, _⟩ => by
      have other : names.mapM frame.column = .ok columns :=
        mapM_eq_ok.mpr (found.imp fun _ _ => column_eq_ok.mpr)
      cases listed.symm.trans other

/-- Picked rows differ if the rows do and none is picked twice. -/
theorem IsKeyedBy.pick {names : List String} (keyed : frame.IsKeyedBy names)
    (once : chosen.Nodup) : (frame.pick chosen).IsKeyedBy names := by
  obtain ⟨columns, found, distinct⟩ := keyed
  refine ⟨_, found_pick found chosen, fun i j same => ?_⟩
  have origins := (keysOf_pick columns chosen i).symm.trans (same.trans (keysOf_pick columns chosen j))
  exact List.nodup_iff_injective_get.mp once (distinct origins)

/-- If all rows are picked and differ, so do the rows in their own order. -/
theorem IsKeyedBy.of_pick {names : List String} (keyed : (frame.pick chosen).IsKeyedBy names)
    (all : ∀ row, row ∈ chosen) : frame.IsKeyedBy names := by
  obtain ⟨_, found, distinct⟩ := keyed
  obtain ⟨columns, here, rfl⟩ := exists_of_found_pick found
  refine ⟨columns, here, fun first second same => ?_⟩
  obtain ⟨i, rfl⟩ := List.mem_iff_get.mp (all first)
  obtain ⟨j, rfl⟩ := List.mem_iff_get.mp (all second)
  rw [distinct ((keysOf_pick columns chosen i).trans (same.trans (keysOf_pick columns chosen j).symm))]

/-- Rows that differ in their keys are put into one order, whatever order they are in. -/
theorem orderedRows_pick (perm : chosen.Perm (List.finRange frame.rows))
    {columns : List (Column frame.rows)} (distinct : Function.Injective (keysOf columns)) :
    ((frame.pick chosen).orderedRows (columns.map fun column => column.pick chosen)).map
      chosen.get = frame.orderedRows columns := by
  have ordered := (frame.pick chosen).pairwise_orderedRows
    (columns.map fun column => column.pick chosen)
  have moved : ((frame.pick chosen).orderedRows
      (columns.map fun column => column.pick chosen)).Pairwise fun a b =>
        Key.leList (keysOf columns (chosen.get a)) (keysOf columns (chosen.get b)) = true :=
    ordered.imp fun {a b} before => keysOf_pick columns chosen a ▸ keysOf_pick columns chosen b ▸ before
  refine List.Perm.eq_of_pairwise (fun a b _ _ before after =>
    distinct (Key.leList_antisymm before after)) (List.pairwise_map.mpr moved)
    (frame.pairwise_orderedRows columns) ?_
  have picked : ((List.finRange chosen.length).map chosen.get).Perm (List.finRange frame.rows) :=
    (List.map_get_finRange chosen).symm ▸ perm
  exact (((frame.pick chosen).orderedRows_perm _).map chosen.get).trans
    (picked.trans (frame.orderedRows_perm columns).symm)

/-- Rows are sorted by several columns unless a cell of these has parts. -/
theorem sortBy_of_found {frame : Frame} {names : List String} {columns : List (Column frame.rows)}
    (found : List.Forall₂ (fun name column => frame.column? name = some column) names columns)
    (several : names.length ≠ 1) :
    frame.sortBy names = if columns.any Column.hasCompound then .error .unsupported
      else .ok (frame.pick (frame.orderedRows columns)) := by
  have listed : names.mapM frame.column = .ok columns :=
    mapM_eq_ok.mpr (found.imp fun _ _ => column_eq_ok.mpr)
  rw [sortBy, listed]
  rcases columns with _ | ⟨first, _ | ⟨second, rest⟩⟩
  · rfl
  · exact absurd found.length_eq several
  · dsimp only [bind, Except.bind]
    split <;> rfl

/-- Rows that differ in the keys of several columns are sorted by these into one table, whatever order
they are in. -/
theorem sortBy_pick {names : List String} {sorted : Frame}
    (perm : chosen.Perm (List.finRange frame.rows)) (several : names.length ≠ 1)
    (keyed : frame.IsKeyedBy names) (done : frame.sortBy names = .ok sorted) :
    (frame.pick chosen).sortBy names = .ok sorted := by
  have all := mem_of_perm perm
  obtain ⟨columns, found, distinct⟩ := keyed
  have compound : (columns.map fun column => column.pick chosen).any Column.hasCompound =
      columns.any Column.hasCompound := by
    rw [List.any_map]
    exact congrArg columns.any (funext fun column => column.hasCompound_pick all)
  have rows : (frame.pick chosen).pick ((frame.pick chosen).orderedRows
      (columns.map fun column => column.pick chosen)) = frame.pick (frame.orderedRows columns) :=
    (pick_pick _ _ _).trans (congrArg frame.pick (orderedRows_pick perm distinct))
  rw [sortBy_of_found found several] at done
  refine (sortBy_of_found (found_pick found chosen) several).trans ?_
  rw [rows]
  exact compound ▸ done

/-- A picked row is complete if its origin is. -/
theorem isComplete_pick (frame : Frame) (chosen : List (Fin frame.rows))
    (row : Fin chosen.length) :
    (frame.pick chosen).isComplete row = frame.isComplete (chosen.get row) := by
  simp [isComplete, pick, Column.isMissing_pick, Function.comp_def]

/-- The complete ones of picked rows are picked as far as they are complete. -/
theorem complete_of_pick (frame : Frame) (chosen : List (Fin frame.rows)) :
    (frame.pick chosen).complete = frame.pick (chosen.filter frame.isComplete) := by
  have kept : (frame.pick chosen).completeRows.map chosen.get = chosen.filter frame.isComplete := by
    conv_rhs => rw [← List.map_get_finRange chosen, List.filter_map]
    exact congrArg _ (List.filter_congr fun row _ => frame.isComplete_pick chosen row)
  exact (frame.pick_pick chosen _).trans (congrArg frame.pick kept)

/-- The complete ones of the rows in another order are the complete rows in another order: in that in
which they are picked. -/
theorem complete_pick (perm : chosen.Perm (List.finRange frame.rows)) :
    ∃ order : List (Fin frame.complete.rows),
      order.Perm (List.finRange frame.complete.rows) ∧
      order.map frame.completeRows.get = chosen.filter frame.isComplete ∧
      (frame.pick chosen).complete = frame.complete.pick order := by
  have distinct : Function.Injective frame.completeRows.get :=
    List.nodup_iff_injective_get.mp ((List.nodup_finRange _).filter _)
  obtain ⟨order, same⟩ : chosen.filter frame.isComplete ∈
      Set.range (List.map frame.completeRows.get) := by
    rw [Set.range_list_map]
    intro row mem
    obtain ⟨_, complete⟩ := List.mem_filter.mp mem
    exact List.mem_iff_get.mp (List.mem_filter.mpr ⟨List.mem_finRange row, complete⟩)
  refine ⟨order, (List.map_perm_map_iff distinct).mp ?_, same, ?_⟩
  · have kept : (List.finRange frame.completeRows.length).map frame.completeRows.get =
        (List.finRange frame.rows).filter frame.isComplete := List.map_get_finRange _
    exact (same ▸ perm.filter _).trans (.of_eq kept.symm)
  · have right : frame.complete.pick order = frame.pick (chosen.filter frame.isComplete) :=
      (frame.pick_pick frame.completeRows order).trans (congrArg frame.pick same)
    exact (frame.complete_of_pick chosen).trans right.symm

end Frame

end Multilevel
