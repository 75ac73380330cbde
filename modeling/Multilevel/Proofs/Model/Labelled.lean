import Multilevel.Proofs.Model.Covariance
import Multilevel.Proofs.Model.Specification
import Multilevel.Proofs.Program.SameData

/-!
# Covariance matrices with labels

A known covariance may be given with a label for each row and each column. Its rows and columns are
then picked by the levels of the grouping factor, rows by the labels of rows and columns by those of
columns (`LabelledMatrix.rows_source`). So neither the order of the labels matters nor labels that are
no levels, and the picked matrix is checked as a plain one (`LabelledMatrix.check_labelled`). A level
that labels two rows or two columns gives too many of them.
-/
namespace Multilevel

/-- A matrix with a label for each row and each column. -/
structure LabelledMatrix where
  /-- The labels of the rows. -/
  rows : List String
  /-- The labels of the columns. -/
  columns : List String
  /-- The number in a row and a column. -/
  cell : Fin rows.length → Fin columns.length → Float

namespace LabelledMatrix

variable {m : LabelledMatrix}

/-- The numbers in some rows and columns. -/
def cellsAt (m : LabelledMatrix) (rows : List (Fin m.rows.length))
    (columns : List (Fin m.columns.length)) : List (List Float) :=
  rows.map fun i => columns.map fun j => m.cell i j

/-- The matrix as a caller gives it, with its labels. -/
def source (m : LabelledMatrix) : CovarianceSource :=
  .labelled m.rows m.columns (m.cellsAt (List.finRange _) (List.finRange _))

/-- Some rows and columns of the matrix with their labels, in the order asked for. -/
def pick (m : LabelledMatrix) (rows : List (Fin m.rows.length))
    (columns : List (Fin m.columns.length)) : LabelledMatrix where
  rows := rows.map m.rows.get
  columns := columns.map m.columns.get
  cell i j := m.cell (rows.get (i.cast (List.length_map _)))
    (columns.get (j.cast (List.length_map _)))

/-- The matrix without its labels, as nested lists. -/
def nested (m : LabelledMatrix) : Value :=
  .list ((m.cellsAt (List.finRange _) (List.finRange _)).map fun row => .list (row.map .float))

/-- Whether no label stands twice, neither among rows nor among columns. -/
structure IsKeyed (m : LabelledMatrix) : Prop where
  rows : m.rows.Nodup
  columns : m.columns.Nodup

/-- Every table that is accepted is such a matrix. -/
theorem exists_source {rows columns : List String} {cells : List (List Float)}
    {given : CovarianceSource} (done : CovarianceSource.ofTable rows columns cells = .ok given) :
    ∃ m : LabelledMatrix, m.rows = rows ∧ m.columns = columns ∧ given = m.source := by
  unfold CovarianceSource.ofTable at done
  split at done
  · rename_i even
    obtain rfl := Except.ok.inj done
    obtain ⟨count, width⟩ := Bool.and_eq_true_iff.mp even
    have count : cells.length = rows.length := of_decide_eq_true count
    have width (i : Fin rows.length) : (cells.get (i.cast count.symm)).length = columns.length :=
      of_decide_eq_true (List.all_eq_true.mp width _ (List.get_mem _ _))
    refine ⟨⟨rows, columns, fun i j =>
      (cells.get (i.cast count.symm)).get (j.cast (width i).symm)⟩, rfl, rfl, ?_⟩
    rw [source]
    congr 1
    refine List.ext_getElem (by simp [cellsAt, count]) fun i here _ => ?_
    refine List.ext_getElem ?_ fun j inside _ => ?_
    · simpa [cellsAt] using width ⟨i, count ▸ here⟩
    · simp [cellsAt]
  · cases done

end LabelledMatrix

namespace CovarianceSource

/-- A label stands at as many places as it is counted. -/
theorem length_positions (labels : List String) (label : String) :
    (positions labels label).length = labels.count label := by
  have places : (List.range labels.length).map (fun i => labels[i]?) = labels.map some := by
    refine List.ext_getElem (by simp) fun i here _ => ?_
    simp
  have counted := congrArg (List.count (some label)) places
  rw [List.count_map_of_injective _ _ (Option.some_injective _)] at counted
  rw [← counted, positions, List.count_eq_countP, List.countP_map, List.countP_eq_length_filter]
  congr 1
  refine List.filter_congr fun i _ => ?_
  rw [Bool.eq_iff_iff, decide_eq_true_iff, Function.comp_apply, beq_iff_eq]

/-- A label that stands once stands at its place. -/
theorem positions_get {labels : List String} (distinct : labels.Nodup) (i : Fin labels.length) :
    positions labels (labels.get i) = [i.val] := by
  have here : i.val ∈ positions labels (labels.get i) := by simp [positions]
  have once : (positions labels (labels.get i)).length = 1 := by
    rw [length_positions, List.count_eq_one_of_mem distinct (List.get_mem _ _)]
  obtain ⟨place, only⟩ := List.length_eq_one_iff.mp once
  rw [only, List.mem_singleton] at here
  rw [only, here]

/-- Labels that stand once are found at the places that they were taken from. -/
theorem flatMap_positions {labels : List String} (distinct : labels.Nodup)
    (places : List (Fin labels.length)) :
    (places.map labels.get).flatMap (positions labels) = places.map Fin.val := by
  rw [List.flatMap_map, List.map_eq_flatMap]
  exact List.flatMap_congr fun i _ => positions_get distinct i

/-- Labels that are all there stand at some places. -/
theorem exists_places {labels levels : List String}
    (inside : ∀ level ∈ levels, level ∈ labels) :
    ∃ places : List (Fin labels.length), places.map labels.get = levels := by
  induction levels with
  | nil => exact ⟨[], rfl⟩
  | cons level rest ih =>
    obtain ⟨first, others⟩ := List.forall_mem_cons.mp inside
    obtain ⟨places, taken⟩ := ih others
    obtain ⟨place, here⟩ := List.mem_iff_get.mp first
    exact ⟨place :: places, by rw [List.map_cons, here, taken]⟩

/-- If a level stands twice among the labels, more places are picked than there are levels. -/
theorem length_lt_of_twice {labels levels : List String}
    (inside : ∀ level ∈ levels, level ∈ labels)
    (twice : ∃ level ∈ levels, 1 < labels.count level) :
    levels.length < (levels.flatMap (positions labels)).length := by
  have each : ∀ level ∈ levels, 1 ≤ (positions labels level).length := fun level mem => by
    rw [length_positions]
    exact List.count_pos_iff.mpr (inside level mem)
  obtain ⟨level, mem, more⟩ := twice
  rw [List.length_flatMap]
  have sums := List.sum_lt_sum (l := levels) (fun _ => 1)
    (fun level => (positions labels level).length) each ⟨level, mem, by rwa [length_positions]⟩
  simpa using sums

end CovarianceSource

namespace LabelledMatrix

variable {m : LabelledMatrix} {levels : List String}

/-- The numbers in all rows and columns stand at their places. -/
theorem getD_cellsAt (i : Fin m.rows.length) (j : Fin m.columns.length) :
    ((m.cellsAt (List.finRange _) (List.finRange _)).getD i []).getD j 0.0 = m.cell i j := by
  simp [cellsAt, List.getD_eq_getElem?_getD]

/-- As many rows are picked as were asked for. -/
theorem length_rows_pick (rows : List (Fin m.rows.length)) (columns : List (Fin m.columns.length)) :
    (m.pick rows columns).rows.length = rows.length := List.length_map _

/-- So are columns. -/
theorem length_columns_pick (rows : List (Fin m.rows.length))
    (columns : List (Fin m.columns.length)) :
    (m.pick rows columns).columns.length = columns.length := List.length_map _

/-- The numbers of a picked matrix are those that were picked. -/
theorem cellsAt_pick (chosen : List (Fin m.rows.length)) (kept : List (Fin m.columns.length))
    (rows : List (Fin (m.pick chosen kept).rows.length))
    (columns : List (Fin (m.pick chosen kept).columns.length)) :
    (m.pick chosen kept).cellsAt rows columns =
      m.cellsAt (rows.map fun i => chosen.get (i.cast (length_rows_pick chosen kept)))
        (columns.map fun j => kept.get (j.cast (length_columns_pick chosen kept))) := by
  simp only [cellsAt, List.map_map, Function.comp_def]
  rfl

/-- The levels that label no row or no column. -/
def missing (m : LabelledMatrix) (levels : List String) : List String :=
  levels.filter fun level => !m.rows.contains level || !m.columns.contains level

/-- No level is missing exactly if each labels a row and a column. -/
theorem missing_eq_nil : m.missing levels = [] ↔
    (∀ level ∈ levels, level ∈ m.rows) ∧ ∀ level ∈ levels, level ∈ m.columns := by
  simp [missing, List.filter_eq_nil_iff, ← forall_and]

/-- A matrix in which a level is missing is refused. -/
theorem rows_of_missing (name : String) (absent : m.missing levels ≠ []) :
    m.source.rows name levels = refuse (DataError.covarianceLevels name (m.missing levels)) := by
  have some : (m.missing levels).isEmpty = false := by simpa using absent
  rw [missing] at some
  simp only [source, CovarianceSource.rows, missing, some, Bool.not_false, ↓reduceIte, refuse_bind]

/-- Where none is missing, each level picks the places at which it stands. -/
theorem rows_of_inside (name : String) (inside : m.missing levels = []) :
    m.source.rows name levels =
      .ok ([(levels.flatMap (CovarianceSource.positions m.rows)).length,
          (levels.flatMap (CovarianceSource.positions m.columns)).length],
        (levels.flatMap (CovarianceSource.positions m.rows)).map fun i =>
          (levels.flatMap (CovarianceSource.positions m.columns)).map fun j =>
            ((m.cellsAt (List.finRange _) (List.finRange _)).getD i []).getD j 0.0) := by
  rw [missing] at inside
  simp only [source, CovarianceSource.rows, inside, List.isEmpty_nil, Bool.not_true,
    Bool.false_eq_true, ↓reduceIte]
  rfl

/-- The rows and columns of a matrix with distinct labels are picked by the levels. -/
theorem rows_source (keyed : m.IsKeyed) (name : String) {rows : List (Fin m.rows.length)}
    {columns : List (Fin m.columns.length)} (left : rows.map m.rows.get = levels)
    (right : columns.map m.columns.get = levels) :
    m.source.rows name levels = .ok ([levels.length, levels.length], m.cellsAt rows columns) := by
  have inside : m.missing levels = [] := by
    refine missing_eq_nil.mpr ⟨fun level mem => ?_, fun level mem => ?_⟩
    · obtain ⟨i, _, rfl⟩ := List.mem_map.mp (left ▸ mem)
      exact List.get_mem _ _
    · obtain ⟨j, _, rfl⟩ := List.mem_map.mp (right ▸ mem)
      exact List.get_mem _ _
  have chosen : levels.flatMap (CovarianceSource.positions m.rows) = rows.map Fin.val := by
    rw [← left, CovarianceSource.flatMap_positions keyed.rows]
  have kept : levels.flatMap (CovarianceSource.positions m.columns) = columns.map Fin.val := by
    rw [← right, CovarianceSource.flatMap_positions keyed.columns]
  have tall : rows.length = levels.length := by rw [← left, List.length_map]
  have wide : columns.length = levels.length := by rw [← right, List.length_map]
  simp only [rows_of_inside name inside, chosen, kept, List.length_map, tall, wide, List.map_map,
    Function.comp_def, getD_cellsAt]
  rfl

/-- Whether picked rows and columns have every level that labels one, and none comes twice. -/
structure Keeps (m : LabelledMatrix) (levels : List String) (rows : List (Fin m.rows.length))
    (columns : List (Fin m.columns.length)) : Prop where
  /-- No row comes twice. -/
  nodup_rows : rows.Nodup
  /-- No column comes twice. -/
  nodup_columns : columns.Nodup
  /-- Every row with a level for its label is picked. -/
  rows : ∀ i, m.rows.get i ∈ levels → i ∈ rows
  /-- So is every column. -/
  columns : ∀ j, m.columns.get j ∈ levels → j ∈ columns

/-- A level is among picked labels exactly if it is among all. -/
theorem mem_picked {labels : List String} {places : List (Fin labels.length)}
    (kept : ∀ i, labels.get i ∈ levels → i ∈ places) {level : String} (mem : level ∈ levels) :
    level ∈ places.map labels.get ↔ level ∈ labels := by
  constructor
  · intro picked
    obtain ⟨i, _, rfl⟩ := List.mem_map.mp picked
    exact List.get_mem _ _
  · intro listed
    obtain ⟨i, rfl⟩ := List.mem_iff_get.mp listed
    exact List.mem_map_of_mem (kept i mem)

variable {rows : List (Fin m.rows.length)} {columns : List (Fin m.columns.length)}

/-- The same levels are missing. -/
theorem Keeps.missing_pick (keeps : m.Keeps levels rows columns) :
    (m.pick rows columns).missing levels = m.missing levels := by
  refine List.filter_congr fun level mem => ?_
  have left := mem_picked keeps.rows mem
  have right := mem_picked keeps.columns mem
  simp only [← List.contains_iff_mem, ← Bool.eq_iff_iff] at left right
  rw [show (m.pick rows columns).rows = rows.map m.rows.get from rfl, left,
    show (m.pick rows columns).columns = columns.map m.columns.get from rfl, right]

/-- Picked labels are distinct. -/
theorem IsKeyed.pick (keyed : m.IsKeyed) (distinct : rows.Nodup) (distinct' : columns.Nodup) :
    (m.pick rows columns).IsKeyed where
  rows := distinct.map (List.nodup_iff_injective_get.mp keyed.rows)
  columns := distinct'.map (List.nodup_iff_injective_get.mp keyed.columns)

/-- Neither the order of labels nor labels that are no levels change what is picked by the levels. -/
theorem Keeps.rows_pick (keeps : m.Keeps levels rows columns) (keyed : m.IsKeyed) (name : String) :
    (m.pick rows columns).source.rows name levels = m.source.rows name levels := by
  by_cases inside : m.missing levels = []
  · obtain ⟨up, down⟩ := missing_eq_nil.mp (keeps.missing_pick.trans inside)
    obtain ⟨chosen, left⟩ := CovarianceSource.exists_places up
    obtain ⟨kept, right⟩ := CovarianceSource.exists_places down
    rw [rows_source (keyed.pick keeps.nodup_rows keeps.nodup_columns) name left right, cellsAt_pick]
    -- A place of the picked matrix is a place of the given one with the same label.
    refine (rows_source keyed name ?_ ?_).symm
    · rw [← left, List.map_map]
      exact List.map_congr_left fun i _ => (List.getElem_map _).symm
    · rw [← right, List.map_map]
      exact List.map_congr_left fun j _ => (List.getElem_map _).symm
  · rw [rows_of_missing name inside, rows_of_missing name (keeps.missing_pick ▸ inside),
      keeps.missing_pick]

/-- All places of a list in order have its items. -/
theorem map_get_finRange {α : Type} {items : List α} {count : Nat} (all : count = items.length) :
    (List.finRange count).map (fun i => items.get (i.cast all)) = items := by
  subst all
  exact List.map_get_finRange items

/-- The numbers of all picked rows and columns. -/
theorem cellsAt_pick_all : (m.pick rows columns).cellsAt (List.finRange _) (List.finRange _) =
    m.cellsAt rows columns := by
  rw [cellsAt_pick, map_get_finRange, map_get_finRange]

/-- Rows of one length are what grouping their items gives back. -/
theorem rowsOf_flatten {lists : List (List Float)} {width : Nat}
    (even : ∀ row ∈ lists, row.length = width) :
    CovarianceSource.rowsOf width lists.length lists.flatten = lists := by
  induction lists with
  | nil => rfl
  | cons row rest ih =>
    obtain ⟨first, others⟩ := List.forall_mem_cons.mp even
    rw [List.length_cons, CovarianceSource.rowsOf, List.flatten_cons, List.take_left' first,
      List.drop_left' first, ih others]

/-- Numbers are themselves. -/
theorem mapM_numberOfValue (numbers : List Float) :
    ((numbers.map Value.float).mapM Column.numberOfValue : Except Fault (List Float)) =
      .ok numbers := by
  rw [mapM_eq_ok, List.forall₂_map_left_iff]
  exact List.forall₂_same.mpr fun _ _ => rfl

/-- A matrix without labels is taken as it is. -/
theorem rows_nested (name : String) (some : rows ≠ []) :
    CovarianceSource.rows name levels (.plain (m.pick rows columns).nested) =
      .ok ([rows.length, columns.length], m.cellsAt rows columns) := by
  have even : ∀ row ∈ m.cellsAt rows columns, row.length = columns.length := by
    intro row mem
    obtain ⟨i, _, rfl⟩ := List.mem_map.mp mem
    exact List.length_map _
  have tall : (m.cellsAt rows columns).length = rows.length := List.length_map _
  have filled : (m.cellsAt rows columns).isEmpty = false := by simpa [cellsAt] using some
  have array := Value.cells_rows even
  rw [filled, if_neg Bool.false_ne_true, tall] at array
  rw [nested, cellsAt_pick_all]
  simp only [CovarianceSource.rows, bind_eq_ok, liftM_eq_mapError, mapError_eq_ok]
  refine ⟨_, array, _, mapM_numberOfValue _, ?_⟩
  dsimp only
  rw [← tall, rowsOf_flatten even]
  rfl

end LabelledMatrix

namespace TermTree

/-- Whether a tree was built from cleaned data. -/
def IsOfData (tree : TermTree) : Prop :=
  ∃ formula family autocorrelation raw knots data covariances,
    (Cleaning.update raw formula family autocorrelation knots).outcome = .ok data ∧
      build formula family autocorrelation data covariances = .ok tree

/-- A grouping factor of such a tree has levels, the same in all its groups. -/
theorem IsOfData.levels {tree : TermTree} (made : tree.IsOfData) {first other : Group}
    (mem : first ∈ tree.groups) (mem' : other ∈ tree.groups) (same : other.factor = first.factor) :
    first.levels ≠ [] ∧ other.levels = first.levels := by
  obtain ⟨formula, family, autocorrelation, raw, knots, data, covariances, cleaned, built⟩ := made
  obtain ⟨origin, clean⟩ := Cleaning.update_spec cleaned
  obtain ⟨_, _, groups⟩ := build_eq_ok built
  obtain ⟨column, found, levels⟩ := (groups.built first mem).levels
  obtain ⟨column', found', levels'⟩ := (groups.built other mem').levels
  rw [same, found] at found'
  obtain rfl := Option.some.inj found'
  refine ⟨fun none => ?_, Option.some.inj (levels'.symm.trans levels)⟩
  -- The first row has a level.
  have present := clean.complete found ⟨0, clean.rows⟩
  cases column with
  | factor listed codes =>
    obtain rfl := Option.some.inj levels
    simp only [Column.isMissing, Option.isNone_eq_false_iff] at present
    obtain ⟨level, _⟩ := Option.isSome_iff_exists.mp present
    rw [none] at level
    exact level.elim0
  | _ => cases levels

/-- The tree of a model that was accepted is such a tree. -/
theorem isOfData_of_normalize {a : ModelArguments} {s : Specification}
    (done : (Specification.normalize a).outcome = .ok s) : s.terms.IsOfData := by
  simp only [Specification.normalize, Reported.outcome_bind, Reported.outcome_pure,
    Reported.outcome_liftM, bind_eq_ok, mapError_eq_ok] at done
  obtain ⟨formula, _, family, _, raw, _, _, _, _, _, data, cleaned, _, _, terms, built, _, _, _, _,
    _, _, _, _, made⟩ := done
  obtain rfl := Except.ok.inj made
  exact ⟨formula, family, a.autocorrelation, raw, _, data, _, cleaned, built⟩

end TermTree

namespace CovarianceSource

variable {name : String} {tree : TermTree} {first : Group} {source other : CovarianceSource}

/-- What is checked are the rows for the levels. -/
theorem check_congr (here : (tree.groupsOf name).head? = some first)
    (same : source.rows name first.levels = other.rows name first.levels) :
    source.check name tree = other.check name tree := by
  simp only [check, here, same]

/-- A matrix whose rows cannot be had is refused. -/
theorem check_of_refused {e : Failure} (here : (tree.groupsOf name).head? = some first)
    (refused : source.rows name first.levels = .error e) : source.check name tree = .error e := by
  simp only [check, here, refused]
  rfl

/-- So is one of a wrong shape. -/
theorem check_of_shape {shape : List Nat} {rows : List (List Float)}
    (here : (tree.groupsOf name).head? = some first)
    (picked : source.rows name first.levels = .ok (shape, rows))
    (wrong : shape ≠ [first.levels.length, first.levels.length]) :
    source.check name tree =
      refuse (DataError.covarianceShape name first.levels.length (displayShape shape)) := by
  simp only [check, here, picked, bind, Except.bind, if_pos wrong]
  rfl

/-- A checked matrix has the rows for the levels. -/
theorem rows_of_check {c : Covariance} (here : (tree.groupsOf name).head? = some first)
    (done : source.check name tree = .ok c) :
    ∃ shape rows, source.rows name first.levels = .ok (shape, rows) ∧
      c.size = first.levels.length ∧ c.cells.toList.map Vector.toList = rows := by
  simp only [check, here, ↓refuse_bind, bind_eq_ok, ite_refuse_eq_ok] at done
  obtain ⟨⟨shape, rows⟩, picked, shaped, done⟩ := done
  split at done
  · rename_i matrix made
    simp only [ite_refuse_eq_ok, pure_eq_ok] at done
    obtain ⟨_, _, _, rfl⟩ := done
    exact ⟨shape, rows, picked, Covariance.size_of_ofRows? made, Covariance.rows_of_ofRows? made⟩
  · simp [refuse_ne_ok] at done

end CovarianceSource

namespace LabelledMatrix

/-- Whether a matrix has the numbers of a labelled one in the order of levels: in each row and column
the number in the row and the column that these levels label. -/
structure IsOrdered (m : LabelledMatrix) (levels : List String) (c : Covariance) : Prop where
  /-- There is one row per level. -/
  size : c.size = levels.length
  /-- The number in a row and a column is the one at their labels. -/
  entry : ∀ i j : Fin c.size, ∃ row column, m.rows.get row = levels.get (i.cast size) ∧
    m.columns.get column = levels.get (j.cast size) ∧ c.entry i j = m.cell row column

variable {m : LabelledMatrix} {levels : List String} {name : String} {tree : TermTree}
  {first : Group}

/-- A checked matrix with distinct labels is in the order of the levels. -/
theorem isOrdered_of_check {c : Covariance} (keyed : m.IsKeyed)
    (here : (tree.groupsOf name).head? = some first)
    (done : m.source.check name tree = .ok c) : m.IsOrdered first.levels c := by
  obtain ⟨shape, picked, computed, size, cells⟩ := CovarianceSource.rows_of_check here done
  have inside : m.missing first.levels = [] := by
    by_contra absent
    rw [rows_of_missing name absent] at computed
    exact absurd computed (by simp [refuse_ne_ok])
  obtain ⟨up, down⟩ := missing_eq_nil.mp inside
  obtain ⟨rows, left⟩ := CovarianceSource.exists_places up
  obtain ⟨columns, right⟩ := CovarianceSource.exists_places down
  rw [rows_source keyed name left right] at computed
  obtain ⟨rfl, rfl⟩ := Prod.mk.inj (Except.ok.inj computed)
  refine ⟨size, fun i j => ?_⟩
  have tall : rows.length = first.levels.length := by rw [← left, List.length_map]
  have wide : columns.length = first.levels.length := by rw [← right, List.length_map]
  have row : i < rows.length := by omega
  have column : j < columns.length := by omega
  refine ⟨rows[i], columns[j], ?_, ?_, ?_⟩
  · simp [← left]
  · simp [← right]
  · have entry := c.getElem?_rows i j
    rw [cells] at entry
    refine Option.some.inj (entry.symm.trans ?_)
    simp [cellsAt, row, column]

/-- A level that labels two rows or two columns leaves no matrix that is accepted. -/
theorem refused_of_twice (here : (tree.groupsOf name).head? = some first)
    (twice : ∃ level ∈ first.levels, 1 < m.rows.count level ∨ 1 < m.columns.count level) :
    ∃ e : DataError, m.source.check name tree = refuse e := by
  by_cases inside : m.missing first.levels = []
  · obtain ⟨up, down⟩ := missing_eq_nil.mp inside
    refine ⟨_, CovarianceSource.check_of_shape here (rows_of_inside name inside) ?_⟩
    intro square
    obtain ⟨tall, wide⟩ : _ ∧ _ := by simpa only [List.cons.injEq, and_true] using square
    obtain ⟨level, mem, row | column⟩ := twice
    · exact (CovarianceSource.length_lt_of_twice up ⟨level, mem, row⟩).ne' tall
    · exact (CovarianceSource.length_lt_of_twice down ⟨level, mem, column⟩).ne' wide
  · exact ⟨_, CovarianceSource.check_of_refused here (rows_of_missing name inside)⟩

/-- The check of a known covariance with labels. Where the labels of rows are distinct, and so are
those of columns: a matrix that is accepted has the number at two levels in their places; nothing
changes with the order of rows, the order of columns or labels that are no levels; and nothing
changes if the matrix is put into the order of the levels and given without labels. A level that
labels two rows or two columns is refused. The levels are those of every group of the factor, and
there are some, if the tree was built from data. -/
theorem check_labelled (m : LabelledMatrix) {tree : TermTree} {name : String} {first : Group}
    (here : (tree.groupsOf name).head? = some first) :
    (m.IsKeyed →
      (∀ c, m.source.check name tree = .ok c → m.IsOrdered first.levels c) ∧
      (∀ rows columns, m.Keeps first.levels rows columns →
        (m.pick rows columns).source.check name tree = m.source.check name tree) ∧
      (∀ rows columns, first.levels ≠ [] → rows.map m.rows.get = first.levels →
        columns.map m.columns.get = first.levels →
        (CovarianceSource.plain (m.pick rows columns).nested).check name tree =
          m.source.check name tree)) ∧
    ((∃ level ∈ first.levels, 1 < m.rows.count level ∨ 1 < m.columns.count level) →
      ∃ e : DataError, m.source.check name tree = refuse e) ∧
    (tree.IsOfData → first.levels ≠ [] ∧
      ∀ group ∈ tree.groups, group.factor = name → group.levels = first.levels) := by
  have mem := List.mem_filter.mp (List.mem_of_head? here)
  have named : first.factor = name := of_decide_eq_true mem.2
  refine ⟨fun keyed => ⟨fun c done => isOrdered_of_check keyed here done,
    fun rows columns keeps => CovarianceSource.check_congr here (keeps.rows_pick keyed name),
    fun rows columns some left right => CovarianceSource.check_congr here ?_⟩,
    refused_of_twice here, fun made => ⟨(made.levels mem.1 mem.1 rfl).1, fun group inside same =>
      (made.levels mem.1 inside (same.trans named.symm)).2⟩⟩
  have tall : rows.length = first.levels.length := by rw [← left, List.length_map]
  have wide : columns.length = first.levels.length := by rw [← right, List.length_map]
  have filled : rows ≠ [] := by
    rintro rfl
    exact some left.symm
  rw [rows_source keyed name left right, rows_nested name filled, tall, wide]

/-- A small model with two groups. -/
def siblings : ModelArguments where
  formula := "y ~ x + (1 | g)"
  data := .table ⟨3, [("y", .int #[2, 3, 5].toVector), ("x", .int #[0, 1, 4].toVector),
    ("g", Column.withLevels (.text #[some "u", some "v", some "u"].toVector) ["u", "v"])]⟩

/-- How three are related, with rows and columns in orders of their own. -/
def kinship : LabelledMatrix where
  rows := ["w", "v", "u"]
  columns := ["v", "u", "w"]
  cell i j := if ["w", "v", "u"].get i = ["v", "u", "w"].get j then 1.0 else 0.5

/-- The two groups are picked out of the three, whatever the order, and refused if one comes twice. -/
theorem siblings_kinship : ∃ s first c, (Specification.normalize siblings).outcome = .ok s ∧
    (s.terms.groupsOf "g").head? = some first ∧ first.levels = ["u", "v"] ∧
    kinship.source.check "g" s.terms = .ok c ∧ kinship.IsOrdered ["u", "v"] c ∧
    (kinship.pick (List.finRange _).reverse [⟨0, by decide⟩, ⟨1, by decide⟩]).source.check "g"
      s.terms = .ok c ∧
    (CovarianceSource.plain (kinship.pick [⟨2, by decide⟩, ⟨1, by decide⟩]
      [⟨1, by decide⟩, ⟨0, by decide⟩]).nested).check "g" s.terms = .ok c ∧
    (∃ e : DataError, (kinship.pick (List.finRange _ ++ List.finRange _)
      (List.finRange _)).source.check "g" s.terms = refuse e) ∧
    ∀ group ∈ s.terms.groups, group.factor = "g" → group.levels = ["u", "v"] := by
  obtain ⟨s, accepted, computed⟩ := exists_of_any (Specification.normalize siblings).outcome
    (fun s => (s.terms.groupsOf "g").head?.map Group.levels = some ["u", "v"] ∧
      (kinship.source.check "g" s.terms).isOk) (by decide +kernel)
  obtain ⟨levels, passed⟩ := of_decide_eq_true computed
  obtain ⟨first, here, levels⟩ := Option.map_eq_some_iff.mp levels
  obtain ⟨c, checked⟩ := exists_of_isOk passed
  have keyed : kinship.IsKeyed := ⟨by decide, by decide⟩
  obtain ⟨labelled, _, same⟩ := check_labelled kinship here
  obtain ⟨ordered, picked, plain⟩ := labelled keyed
  obtain ⟨_, twice, _⟩ := check_labelled
    (kinship.pick (List.finRange _ ++ List.finRange _) (List.finRange _)) here
  rw [levels] at ordered picked plain twice same
  refine ⟨s, first, c, accepted, here, levels, checked, ordered c checked, ?_, ?_,
    twice ⟨"u", by decide, .inl (by decide)⟩, (same (TermTree.isOfData_of_normalize accepted)).2⟩
  · exact (picked _ _ ⟨by decide, by decide, by decide, by decide⟩).trans checked
  · exact (plain _ _ (by decide) (by decide) (by decide)).trans checked

end LabelledMatrix

end Multilevel
