import Mathlib
import Multilevel.Data.Factor
import Multilevel.Data.Order
import Multilevel.Proofs.Entries
import Multilevel.Proofs.Outcome

/-!
# Cells of columns

What picking rows and turning a column into a factor do to the single cells: both keep the text
of every cell as a level, and a factor made from a column has distinct levels, each of which some
cell has.
-/
namespace Multilevel.Column

variable {rows : Nat}

/-- The cell of a picked row is missing if that of its origin is. -/
theorem isMissing_pick (column : Column rows) (chosen : List (Fin rows))
    (row : Fin chosen.length) : (column.pick chosen).isMissing row = column.isMissing chosen[row] := by
  cases column <;> simp [pick, isMissing]

/-- The cell of a picked row has the level of its origin. -/
theorem level?_pick (column : Column rows) (chosen : List (Fin rows)) (row : Fin chosen.length) :
    (column.pick chosen).level? row = column.level? chosen[row] := by
  unfold level?
  rw [isMissing_pick]
  cases column <;> simp [pick]

/-- The key of a picked row's cell is that of its origin. -/
theorem key?_pick (column : Column rows) (chosen : List (Fin rows)) (row : Fin chosen.length) :
    (column.pick chosen).key? row = column.key? chosen[row] := by
  cases column <;> simp [pick, key?, Vector.get_eq_getElem]

/-- Picking rows keeps the levels of a factor. -/
theorem levels?_pick (column : Column rows) (chosen : List (Fin rows)) :
    (column.pick chosen).levels? = column.levels? := by
  cases column <;> rfl

/-- Picking rows keeps numbers numbers. -/
theorem isNumeric_pick (column : Column rows) (chosen : List (Fin rows)) :
    (column.pick chosen).isNumeric = column.isNumeric := by
  cases column <;> rfl

/-- Whether a column holds integers that 64-bit words hold. -/
def IsInt : Column rows → Prop
  | int _ => True
  | _ => False

/-- Picking rows keeps integers integers. -/
theorem IsInt.pick {column : Column rows} (integers : column.IsInt) (chosen : List (Fin rows)) :
    (column.pick chosen).IsInt := by
  cases column <;> trivial

/-- No integer is missing. -/
theorem IsInt.isMissing {column : Column rows} (integers : column.IsInt) (row : Fin rows) :
    column.isMissing row = false := by
  cases column <;> trivial

/-- Integers are numbers. -/
theorem IsInt.isNumeric {column : Column rows} (integers : column.IsInt) :
    column.isNumeric = true := by
  cases column <;> trivial

/-- A column of numbers is no factor. -/
theorem levels?_of_isNumeric {column : Column rows} (numeric : column.isNumeric = true) :
    column.levels? = none := by
  cases column <;> first | rfl | cases numeric

/-- A cell has a level unless it is missing. -/
theorem level?_eq_none_iff (column : Column rows) (row : Fin rows) :
    column.level? row = none ↔ column.isMissing row = true := by
  unfold level?
  by_cases missing : column.isMissing row
  · simp [missing]
  · rw [if_neg missing]
    cases column <;> simp_all [isMissing]

/-- The cell of a factor has the level that its code points at. -/
theorem level?_factor {levels : List String} (codes : Vector (Option (Fin levels.length)) rows)
    (row : Fin rows) :
    (factor levels codes).level? row = (codes.get row).map levels.get := by
  unfold level?
  cases same : codes.get row <;> simp_all [isMissing, Vector.get_eq_getElem]

/-- A factor with levels that hold all those of a column has the levels of the column. -/
theorem level?_withLevels (column : Column rows) {levels : List String}
    (covered : ∀ row text, column.level? row = some text → text ∈ levels) (row : Fin rows) :
    (column.withLevels levels).level? row = column.level? row := by
  rw [withLevels, level?_factor]
  cases found : column.level? row with
  | none => simp [found]
  | some text =>
    cases code : levels.finIdxOf? text with
    | none =>
      rw [List.finIdxOf?_eq_none_iff] at code
      exact absurd (covered row text found) code
    | some k =>
      have here := (List.finIdxOf?_eq_some_iff.mp code).1
      simpa [found, code] using here

/-- The levels of a factor that occur in it are those of its cells. -/
theorem mem_presentLevels {column : Column rows} {levels : List String} {text : String} :
    text ∈ column.presentLevels levels ↔
      text ∈ levels ∧ ∃ row, column.level? row = some text := by
  simp [presentLevels]

/-- Of the levels of a factor, those that occur are the levels of its cells. -/
theorem mem_presentLevels_factor {levels : List String}
    {codes : Vector (Option (Fin levels.length)) rows} {text : String} :
    text ∈ (factor levels codes).presentLevels levels ↔
      ∃ row, (factor levels codes).level? row = some text := by
  rw [mem_presentLevels]
  refine and_iff_right_of_imp fun ⟨row, here⟩ => ?_
  rw [level?_factor, Option.map_eq_some_iff] at here
  obtain ⟨code, _, rfl⟩ := here
  exact List.getElem_mem _

/-- The sorted levels of a column are those of its cells. -/
theorem mem_sortedLevels {column : Column rows} {text : String} :
    text ∈ column.sortedLevels ↔ ∃ row, column.level? row = some text := by
  simp [sortedLevels]

/-- The sorted levels of a column are distinct. -/
theorem nodup_sortedLevels (column : Column rows) : column.sortedLevels.Nodup :=
  (List.mergeSort_perm _ _).nodup_iff.mpr (nodup_eraseDups _)

/-- A factor whose cells have exactly its levels, no level being listed twice. -/
structure IsSpanned (column : Column rows) (levels : List String) : Prop where
  /-- The column is a factor with these levels. -/
  levels? : column.levels? = some levels
  /-- No level is listed twice. -/
  distinct : levels.Nodup
  /-- Every level is that of some cell. -/
  occurs : ∀ text ∈ levels, ∃ row, column.level? row = some text

/-- A column as a factor: its cells keep their levels, and these are the levels of the factor. -/
theorem asFactor_spec {column made : Column rows} (converted : column.asFactor = .ok made) :
    (∀ row, made.level? row = column.level? row) ∧ ∃ levels, made.IsSpanned levels := by
  -- Both kinds of conversion list the levels of the cells, so one argument serves them.
  have spanned (levels : List String) (distinct : levels.Nodup)
      (exact : ∀ text, text ∈ levels ↔ ∃ row, column.level? row = some text) :
      (∀ row, (column.withLevels levels).level? row = column.level? row) ∧
        ∃ levels', (column.withLevels levels).IsSpanned levels' := by
    have kept := column.level?_withLevels fun row text here => (exact text).mpr ⟨row, here⟩
    refine ⟨kept, levels, rfl, distinct, fun text mem => ?_⟩
    obtain ⟨row, here⟩ := (exact text).mp mem
    exact ⟨row, (kept row).trans here⟩
  unfold asFactor at converted
  split at converted
  · rename_i levels codes
    dsimp only at converted
    split at converted
    · rename_i full
      obtain rfl := Except.ok.inj converted
      exact spanned _ (length_eraseDups_eq_iff.mp full) fun text => mem_presentLevels_factor
    · cases converted
  · split at converted
    · split at converted <;> cases converted
    · obtain rfl := Except.ok.inj converted
      exact spanned _ (nodup_sortedLevels column) fun text => mem_sortedLevels

/-- Whether a column is as a model takes it: it holds numbers or is a factor without repeated
levels. -/
def IsTaken (column : Column rows) : Prop :=
  column.isNumeric = true ∨ ∃ levels, column.IsSpanned levels

/-- A column that a model takes has no cells with parts. -/
theorem IsTaken.hasCompound {column : Column rows} (taken : column.IsTaken) :
    column.hasCompound = false := by
  rcases taken with numeric | ⟨levels, spanned⟩
  · cases column <;> first | rfl | cases numeric
  · cases column <;> first | rfl | cases spanned.levels?

/-- The levels of a column that a model takes are distinct, and each occurs. -/
theorem IsTaken.isSpanned {column : Column rows} (taken : column.IsTaken) {levels : List String}
    (factor : column.levels? = some levels) : column.IsSpanned levels := by
  rcases taken with numeric | ⟨own, spanned⟩
  · rw [levels?_of_isNumeric numeric] at factor
    cases factor
  · exact Option.some.inj (spanned.levels?.symm.trans factor) ▸ spanned

end Multilevel.Column
