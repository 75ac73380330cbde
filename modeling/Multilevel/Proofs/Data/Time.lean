import Mathlib
import Multilevel.Proofs.Data.Order

/-!
# The order of cells after cleaning

A column that becomes a factor keeps the order of its cells if it holds texts, truth values or
levels: the sorted levels stand in the order of the cells. Numbers, and cells of any kinds, lose
theirs, because their levels are sorted by characters. Columns that stay numbers keep their order
(`Cleaning.update_keepsOrderOf`).
-/
namespace Multilevel

namespace Column

variable {rows : Nat}

/-- Whether cells of a column that stand in order are the images of cells of another column that
do. -/
def KeepsOrderOf {raw : Nat} (made : Column rows) (origin : Fin rows → Fin raw)
    (given : Column raw) : Prop :=
  ∀ i j, Key.leMissing (made.key? i) (made.key? j) = true →
    Key.leMissing (given.key? (origin i)) (given.key? (origin j)) = true

/-- The key of a cell among given levels is the place of its level. -/
theorem key?_withLevels (column : Column rows) (levels : List String) (row : Fin rows) :
    (column.withLevels levels).key? row =
      ((column.level? row).bind levels.finIdxOf?).map fun code => .number (code.val : Int) := by
  simp [withLevels, key?, Vector.get_eq_getElem]

/-- A factor keeps the order of a column if its levels stand in the order of the cells that have
them. -/
theorem keepsOrderOf_withLevels {column : Column rows} {levels : List String}
    {before : String → String → Prop} (sorted : levels.Pairwise before)
    (covered : ∀ row text, column.level? row = some text → text ∈ levels)
    (absent : ∀ row, column.level? row = none → column.key? row = none)
    (present : ∀ i j a b, column.level? i = some a → column.level? j = some b →
      a = b ∨ before a b → Key.leMissing (column.key? i) (column.key? j) = true) :
    (column.withLevels levels).KeepsOrderOf id column := by
  intro i j ordered
  rw [key?_withLevels, key?_withLevels] at ordered
  have code {row : Fin rows} {text : String} (here : column.level? row = some text) :
      ∃ place : Fin levels.length, levels.finIdxOf? text = some place ∧ levels[place] = text := by
    cases found : levels.finIdxOf? text with
    | none => exact absurd (covered row text here) (List.finIdxOf?_eq_none_iff.mp found)
    | some place => exact ⟨place, rfl, (List.finIdxOf?_eq_some_iff.mp found).1⟩
  cases first : column.level? i with
  | none =>
    cases second : column.level? j with
    | none =>
      rw [id, id, absent i first, absent j second]
      rfl
    | some b =>
      obtain ⟨d, found, _⟩ := code second
      rw [first, second, Option.bind_none, Option.bind_some, found] at ordered
      cases ordered
  | some a =>
    cases second : column.level? j with
    | none =>
      rw [id, id, absent j second]
      cases column.key? i <;> rfl
    | some b =>
      obtain ⟨c, found, same⟩ := code first
      obtain ⟨d, found', same'⟩ := code second
      rw [first, second, Option.bind_some, Option.bind_some, found, found'] at ordered
      have places : c ≤ d := by
        simpa [Key.leMissing, Key.le] using ordered
      refine present i j a b first second ?_
      rcases Nat.eq_or_lt_of_le (Fin.le_def.mp places) with equal | less
      · obtain rfl := Fin.ext equal
        exact .inl (same.symm.trans same')
      · exact .inr (same ▸ same' ▸ List.pairwise_iff_getElem.mp sorted c d c.isLt d.isLt less)

/-- The sorted levels of a column stand in the order of their characters. -/
theorem pairwise_sortedLevels (column : Column rows) :
    column.sortedLevels.Pairwise (· ≤ ·) := by
  have sorted := List.pairwise_mergeSort
    (fun a b c (first : decide (a ≤ b) = true) (second : decide (b ≤ c) = true) =>
      decide_eq_true (String.le_trans (of_decide_eq_true first) (of_decide_eq_true second)))
    (fun a b => by simpa using String.le_total a b)
    ((List.finRange rows).filterMap column.level?).eraseDups
  exact sorted.imp fun less => of_decide_eq_true less

/-- Whether a column holds cells of any kinds. -/
def isMixed : Column rows → Bool
  | mixed _ => true
  | _ => false

/-- A column that is no factor becomes one with its sorted levels. -/
theorem asFactor_eq_sortedLevels {column made : Column rows} (plain : column.levels? = none)
    (converted : column.asFactor = .ok made) : made = column.withLevels column.sortedLevels := by
  unfold asFactor at converted
  split at converted
  · cases plain
  · split at converted
    · split at converted <;> cases converted
    · exact (Except.ok.inj converted).symm

/-- The sorted levels of texts stand in the order of the texts. -/
theorem keepsOrderOf_text {cells : Vector (Option String) rows} {made : Column rows}
    (converted : (text cells).asFactor = .ok made) : made.KeepsOrderOf id (text cells) := by
  obtain rfl := asFactor_eq_sortedLevels rfl converted
  have own (row : Fin rows) : (text cells).level? row = cells.get row := by
    cases here : cells.get row <;>
      simp_all [level?, isMissing, Vector.get_eq_getElem]
  refine keepsOrderOf_withLevels (pairwise_sortedLevels _)
    (fun row level here => mem_sortedLevels.mpr ⟨row, here⟩) (fun row none => ?_)
    fun i j a b first second ordered => ?_
  · rw [key?, ← own, none]
    rfl
  · rw [key?, key?, ← own, ← own, first, second]
    have less : a ≤ b := ordered.elim (fun same => same ▸ String.le_refl a) id
    simpa [Key.leMissing, Key.le] using less

/-- The sorted levels of truth values stand in the order of the truth values. -/
theorem keepsOrderOf_bool {cells : Vector Bool rows} {made : Column rows}
    (converted : (bool cells).asFactor = .ok made) : made.KeepsOrderOf id (bool cells) := by
  obtain rfl := asFactor_eq_sortedLevels rfl converted
  have own (row : Fin rows) :
      (bool cells).level? row = some (Value.bool (cells.get row)).level := by
    simp [level?, isMissing, Vector.get_eq_getElem]
  refine keepsOrderOf_withLevels (pairwise_sortedLevels _)
    (fun row level here => mem_sortedLevels.mpr ⟨row, here⟩) (fun row none => ?_)
    fun i j a b first second ordered => ?_
  · rw [own] at none
    cases none
  · rw [own, Option.some.injEq] at first second
    subst first second
    rw [key?, key?]
    cases one : cells.get i <;> cases two : cells.get j <;> rw [one, two] at ordered
    case true.false => exact absurd ordered (by decide)
    all_goals rfl

/-- The levels of a factor that occur stand in their order. -/
theorem keepsOrderOf_factor {levels : List String}
    {codes : Vector (Option (Fin levels.length)) rows} {made : Column rows}
    (converted : (factor levels codes).asFactor = .ok made) :
    made.KeepsOrderOf id (factor levels codes) := by
  simp only [asFactor] at converted
  split at converted
  case isFalse => cases converted
  rename_i full
  obtain rfl := Except.ok.inj converted
  set column := factor levels codes with given
  -- The levels that occur are those at some places, which are in order.
  set places := (List.finRange levels.length).filter fun place =>
    ((List.finRange rows).filterMap column.level?).contains (levels.get place) with placed
  have kept : column.presentLevels levels = places.map levels.get := by
    conv_lhs => rw [presentLevels, ← List.map_get_finRange levels]
    exact List.filter_map
  have distinct : (places.map levels.get).Nodup := kept ▸ length_eraseDups_eq_iff.mp full
  have sorted : (column.presentLevels levels).Pairwise fun a b =>
      ∃ c ∈ places, ∃ d ∈ places, c < d ∧ levels.get c = a ∧ levels.get d = b := by
    rw [kept, List.pairwise_map]
    have increasing := (List.pairwise_lt_finRange levels.length).filter fun place =>
      ((List.finRange rows).filterMap column.level?).contains (levels.get place)
    exact increasing.imp_of_mem fun first second less => ⟨_, first, _, second, less, rfl, rfl⟩
  have own (row : Fin rows) : column.level? row = (codes.get row).map levels.get :=
    level?_factor codes row
  have occurs {row : Fin rows} {place : Fin levels.length} (here : codes.get row = some place) :
      place ∈ places := by
    rw [placed, List.mem_filter, List.contains_iff_mem, List.mem_filterMap]
    exact ⟨List.mem_finRange place, row, List.mem_finRange row, by rw [own, here, Option.map_some]⟩
  refine keepsOrderOf_withLevels sorted (fun row text here => ?_) (fun row none => ?_)
    fun i j a b first second ordered => ?_
  · rw [kept]
    rw [own, Option.map_eq_some_iff] at here
    obtain ⟨place, there, rfl⟩ := here
    exact List.mem_map_of_mem (occurs there)
  · rw [own, Option.map_eq_none_iff] at none
    rw [given, key?, none, Option.map_none]
  · rw [own, Option.map_eq_some_iff] at first second
    obtain ⟨c, one, rfl⟩ := first
    obtain ⟨d, two, rfl⟩ := second
    have less : c ≤ d := by
      rcases ordered with same | ⟨c', first, d', second, less, left, right⟩
      · exact le_of_eq (List.inj_on_of_nodup_map distinct (occurs one) (occurs two) same)
      · obtain rfl := List.inj_on_of_nodup_map distinct first (occurs one) left
        obtain rfl := List.inj_on_of_nodup_map distinct second (occurs two) right
        exact le_of_lt less
    rw [given, key?, key?, one, two]
    simpa [Key.leMissing, Key.le] using less

/-- A column that holds no numbers keeps its order as a factor, unless it holds cells of any
kinds. -/
theorem keepsOrderOf_asFactor {column made : Column rows} (other : column.isNumeric = false)
    (plain : column.isMixed = false) (converted : column.asFactor = .ok made) :
    made.KeepsOrderOf id column := by
  cases column with
  | float | int | unsigned => cases other
  | mixed => cases plain
  | bool => exact keepsOrderOf_bool converted
  | text => exact keepsOrderOf_text converted
  | factor => exact keepsOrderOf_factor converted

end Column

namespace Cleaning

/-- Whether cleaning keeps the order of a column's cells: the outcome and numbers that are not made
levels stay as they are, and other levels stand in the order of their cells. -/
def KeepsOrder {rows : Nat} (formula : Formula) (grouping : List String) (name : String)
    (column : Column rows) : Prop :=
  IsOutcome formula name ∨
    if column.isNumeric then name ∉ grouping else column.isMixed = false

/-- Converted columns keep the order of their cells where cleaning does. -/
theorem keepsOrderOf_convertColumns {rows : Nat} {formula : Formula} {grouping : List String}
    {columns made : List (String × Column rows)}
    (converted : convertColumns formula grouping columns = .ok made) :
    List.Forall₂ (fun given result => result.1 = given.1 ∧
      (KeepsOrder formula grouping given.1 given.2 → result.2.KeepsOrderOf id given.2))
      columns made := by
  have itself (column : Column rows) : column.KeepsOrderOf id column := fun _ _ ordered => ordered
  refine (convertColumns_cases converted).imp fun given result ⟨named, step⟩ => ⟨named, ?_⟩
  intro keeps
  rcases step with ⟨_, same⟩ | ⟨other, taken, made⟩ | ⟨_, _, same⟩
  · rw [same]
    exact itself _
  · have plain := keeps.resolve_left other
    split at plain
    · rename_i numeric
      simp [plain, numeric] at taken
    · rename_i free
      exact Column.keepsOrderOf_asFactor (Bool.eq_false_iff.mpr free) plain made
  · rw [same]
    exact itself _

/-- Picking rows changes nothing about whether cleaning keeps the order of a column. -/
theorem keepsOrder_pick {rows : Nat} {formula : Formula} {grouping : List String} {name : String}
    {column : Column rows} (chosen : List (Fin rows)) :
    KeepsOrder formula grouping name (column.pick chosen) ↔
      KeepsOrder formula grouping name column := by
  have mixed : (column.pick chosen).isMixed = column.isMixed := by cases column <;> rfl
  rw [KeepsOrder, KeepsOrder, Column.isNumeric_pick, mixed]

/-- The check of a response that may be any numbers leaves the table as it is. -/
theorem checkResponse_of_real {frame checked : Frame} {formula : Formula} {family : Family}
    (real : family.distribution.responseKind = .real)
    (passed : checkResponse frame formula family = .ok checked) : checked = frame := by
  obtain ⟨_, _, _, _, _, made, rfl, own⟩ := exists_passed passed
  cases own with
  | real => rw [readColumns_of_ne (by simp [real])]
  | count kind | binary kind | trials kind => cases real.symm.trans kind

/-- With a response that may be any numbers, cleaned columns keep the order of their cells where
cleaning does. -/
theorem update_keepsOrderOf {raw cleaned : Frame} {formula : Formula} {family : Family}
    {autocorrelation : Option Autocorrelation} {knots : List String}
    (real : family.distribution.responseKind = .real)
    (done : (update raw formula family autocorrelation knots).outcome = .ok cleaned) :
    ∃ origin, Cleaned formula family autocorrelation raw cleaned origin ∧
      ∀ name column, cleaned.column? name = some column →
        ∃ given, raw.column? name = some given ∧
          (KeepsOrder formula (groupingColumns formula autocorrelation) name given →
            column.KeepsOrderOf origin given) := by
  obtain ⟨columns, chosen, converted, checked, selected, complete, nonempty, converts, passed,
    done⟩ := update_eq_ok done
  obtain ⟨names, source⟩ := Frame.of_select selected
  obtain rfl := checkResponse_of_real real passed
  obtain ⟨stored, same, suited⟩ := checkResponse_eq_ok passed
  obtain rfl : converted = stored := by simpa using same
  have clean := Cleaned.of_checked names source complete nonempty converts suited
  have kept : ∀ name column, converted.lookup name = some column →
      ∃ given, raw.column? name = some given ∧
        (KeepsOrder formula (groupingColumns formula autocorrelation) name given →
          column.KeepsOrderOf chosen.get given) := by
    intro name column found
    obtain ⟨picked, here, keeps⟩ := Entries.lookup_of_forall₂
      (fun name given made => KeepsOrder formula (groupingColumns formula autocorrelation) name
        given → made.KeepsOrderOf id given) (keepsOrderOf_convertColumns converts) found
    obtain ⟨given, there, rfl⟩ := Frame.of_column?_pick ⟨raw.rows, columns⟩ here
    refine ⟨given, source name given there, fun able i j ordered => ?_⟩
    have picked := keeps ((keepsOrder_pick chosen).mpr able) i j ordered
    rwa [Column.key?_pick, Column.key?_pick] at picked
  cases autocorrelation with
  | none =>
    obtain rfl := Except.ok.inj done
    exact ⟨_, clean, kept⟩
  | some a =>
    rw [Option.elim_some, Autocorrelation.orderRows] at done
    split at done
    · obtain rfl := Except.ok.inj done
      exact ⟨_, clean, kept⟩
    · obtain ⟨order, reordered, rfl⟩ := Frame.sortBy_eq_ok done
      refine ⟨_, clean.pick reordered, fun name column found => ?_⟩
      obtain ⟨middle, here, rfl⟩ := Frame.of_column?_pick _ found
      obtain ⟨given, there, keeps⟩ := kept name middle here
      refine ⟨given, there, fun able i j ordered => ?_⟩
      have picked := middle.key?_pick order
      exact keeps able _ _ (picked i ▸ picked j ▸ ordered)

end Cleaning

end Multilevel
