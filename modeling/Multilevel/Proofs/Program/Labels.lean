import Multilevel.Proofs.Program.DataBlock

/-!
# Labels of design columns

The names of the coefficients say what the columns of the designs hold. A column is the product of
what the variables of one term contribute, and its label joins their names, the name of a factor
followed by the level that is indicated (`IsNormal.isLabelled`). The data of a program hold these
columns in the order of the names (`BuildData.HoldsDesign`, `BuildData.HoldsGroup`).
-/
namespace Multilevel

variable {rows : Nat}

/-- The numbers that a column of a table contributes to a design: its own, or the indicators of one
of its levels. -/
inductive Column.Contributes (column : Column rows) : Option String → Vector Float rows → Prop
    where
  | number {cells : Vector Float rows} (plain : column.levels? = none)
    (numbers : column.numbers = .ok cells) : Contributes column none cells
  | level {levels : List String} {text : String} {cells : Vector Float rows}
    (factor : column.levels? = some levels) (listed : text ∈ levels)
    (indicates : ∀ row : Fin rows,
      cells.get row = if column.level? row = some text then 1 else 0) :
    Contributes column (some text) cells

/-- What a variable contributes to a design column. -/
structure DesignFactor (rows : Nat) where
  /-- The variable. -/
  name : String
  /-- The level that is indicated, for a factor. -/
  level : Option String
  /-- One number per observation. -/
  cells : Vector Float rows

namespace DesignFactor

/-- The name of the variable, followed by the level. -/
def label (factor : DesignFactor rows) : String := factor.name ++ factor.level.getD ""

/-- The factor as a column. -/
def column (factor : DesignFactor rows) : DesignColumn Float rows := ⟨factor.label, factor.cells⟩

end DesignFactor

/-- Whether a design column is the product of what the variables of some names contribute, under
their joint label. -/
def DesignColumn.IsLabelled (frame : Frame) (names : List String)
    (column : DesignColumn Float frame.rows) : Prop :=
  ∃ factors : List (DesignFactor frame.rows), factors.map DesignFactor.name = names ∧
    (∀ factor ∈ factors, ∃ given, frame.column? factor.name = some given ∧
      given.Contributes factor.level factor.cells) ∧
    column.label = ":".intercalate (factors.map DesignFactor.label) ∧
    ∀ row : Fin frame.rows,
      column.cells.get row =
        (factors.map fun factor => factor.cells.get row).foldl (· * ·) 1

namespace Specification.IsNormal

variable {a : ModelArguments} {s : Specification}

/-- What a variable contributes to a design, its column contributes. -/
theorem contributes (normal : IsNormal a s) {name : String}
    {predictor : Predictor Float s.data.rows} (found : s.data.predictors name = .ok predictor)
    {level : Option String} {cells : Vector Float s.data.rows}
    (contributes : predictor.Contributes level cells) :
    ∃ given, s.data.column? name = some given ∧ given.Contributes level cells := by
  simp only [Frame.predictors, bind_eq_ok, Frame.column_eq_ok] at found
  obtain ⟨given, here, found⟩ := found
  refine ⟨given, here, ?_⟩
  cases contributes with
  | number =>
    unfold Column.predictor at found
    split at found
    · cases found
    · rename_i other
      simp only [bind_eq_ok, pure_eq_ok] at found
      obtain ⟨numbers, read, same⟩ := found
      obtain rfl := Predictor.numeric.inj same
      refine .number ?_ read
      cases levels : given.levels? with
      | none => rfl
      | some levels =>
        obtain ⟨codes, factor⟩ := Column.exists_factor levels
        exact absurd factor (other _ codes)
  | @level levels codes level =>
    have factor := Column.predictor_eq_factor.mp found
    have same : given.levels? = some levels := factor ▸ rfl
    have distinct := (normal.isSpanned here same).distinct
    refine .level same (List.getElem_mem level.isLt) fun row => ?_
    have indicated : given.level? row = some (levels.get level) ↔ codes.get row = some level := by
      rw [factor, Column.level?_factor, Option.map_eq_some_iff]
      constructor
      · rintro ⟨code, coded, equal⟩
        rw [coded, Fin.ext (distinct.getElem_inj_iff.mp equal)]
      · exact fun coded => ⟨level, coded, rfl⟩
    show (codes.map fun code => if code = some level then (1 : Float) else 0).get row = _
    rw [Vector.get_eq_getElem, Vector.getElem_map, ← Vector.get_eq_getElem]
    exact if_congr indicated.symm rfl rfl

/-- A product of what named variables contribute is labelled by them. -/
theorem isLabelled (normal : IsNormal a s) {names : List String}
    (named : ∀ name ∈ names, IsVariableName name) {column : DesignColumn Float s.data.rows}
    (product : Design.IsProduct s.data.predictors names column) :
    column.IsLabelled s.data names := by
  obtain ⟨columns, rfl, each⟩ := product
  have exists_factors : ∃ factors : List (DesignFactor s.data.rows),
      factors.map DesignFactor.name = names ∧ factors.map DesignFactor.column = columns ∧
      ∀ factor ∈ factors, ∃ given, s.data.column? factor.name = some given ∧
        given.Contributes factor.level factor.cells := by
    clear named
    induction each with
    | nil => exact ⟨[], rfl, rfl, by simp⟩
    | @cons name column _ _ first _ ih =>
      obtain ⟨factors, rfl, rfl, others⟩ := ih
      obtain ⟨predictor, level, found, label, contributes⟩ := first
      refine ⟨⟨name, level, column.cells⟩ :: factors, rfl, ?_, fun factor mem => ?_⟩
      · rw [List.map_cons, DesignFactor.column, DesignFactor.label, ← label]
      · rcases List.mem_cons.mp mem with rfl | later
        · exact normal.contributes found contributes
        · exact others factor later
  obtain ⟨factors, rfl, rfl, contribute⟩ := exists_factors
  refine ⟨factors, rfl, contribute, ?_, fun row => ?_⟩
  · rw [DesignColumn.product_label, List.map_map]
    · rfl
    · intro column mem
      obtain ⟨factor, inside, rfl⟩ := List.mem_map.mp mem
      have some := (named _ (List.mem_map_of_mem inside)).ne_empty
      show factor.name ++ factor.level.getD "" ≠ ""
      simp [some]
  · rw [DesignColumn.product_cells, List.map_map]
    rfl

/-- The rows of the data come from rows of the caller's table, each cell of a grouping factor with
its level. -/
theorem exists_level_origin (normal : IsNormal a s) {raw : Frame}
    {origin : Fin s.data.rows → Fin raw.rows}
    (clean : Cleaning.Cleaned s.formula s.family s.autocorrelation raw s.data origin)
    {group : Group} (mem : group ∈ s.terms.groups) :
    ∃ places : Fin s.data.rows → Fin group.levels.length,
      s.data.groupIndex group.factor =
        .ok (List.ofFn fun n => (places n).val + 1) ∧
      (∃ given, raw.column? group.factor = some given ∧
        ∀ n, given.level? (origin n) = some group.levels[places n]) ∧
      ∀ text ∈ group.levels, ∃ n, group.levels[places n] = text := by
  obtain ⟨index, placed, column, found, level⟩ := normal.exists_groupIndex mem
  obtain ⟨own, same, levels⟩ := (normal.groups.built group mem).levels
  rw [found] at same
  obtain rfl := Option.some.inj same
  have other : ¬Cleaning.IsOutcome s.formula group.factor := by
    intro outcome
    have plain := Column.levels?_of_isNumeric (normal.isNumeric_outcome outcome found)
    rw [levels] at plain
    cases plain
  obtain ⟨given, there, kept⟩ := clean.kept other found
  refine ⟨index.get, ?_, ⟨given, there, fun n => ?_⟩, fun text listed => ?_⟩
  · rw [placed]
    congr 1
    apply List.ext_getElem <;> simp [Vector.get_eq_getElem]
  · rw [← kept, level]
    rfl
  · obtain ⟨n, here⟩ := (normal.isSpanned found levels).occurs text listed
    rw [level] at here
    exact ⟨n, Option.some.inj here⟩

end Specification.IsNormal

namespace BuildData

open Specification (IsNormal)

/-- Values of the user leave those of other names as they are. -/
theorem lookup_addLoose {loose : List (String × Value)} {data full : BuildData}
    (done : addLoose loose data = .ok full) {name : String} {datum : Datum}
    (found : data.lookup name = some datum) : full.lookup name = some datum := by
  induction loose generalizing data with
  | nil =>
    obtain rfl := Except.ok.inj done
    exact found
  | cons first rest ih =>
    obtain ⟨other, value⟩ := first
    rw [addLoose, ite_error_eq_ok] at done
    refine ih done.2 ?_
    rw [List.lookup_append, found, Option.some_or]

/-- Whether data hold the design of the shared coefficients, whose columns have their names. -/
structure HoldsDesign (s : Specification) (data : BuildData) : Prop where
  /-- There is a column for each coefficient. -/
  count : data.lookup Variable.coefficients.name = some (.ofNat s.terms.population.length)
  /-- Each is labelled by the variables of a term. -/
  columns : ∃ columns,
    Design.matrix s.data.predictors s.formula.intercept s.formula.terms = .ok columns ∧
      columns.map DesignColumn.label = s.terms.population ∧
      (∀ column ∈ columns, ∃ term ∈ s.formula.terms, column.IsLabelled s.data term.names) ∧
      (s.isSparse = false → data.lookup Variable.design.name = some (.matrix (rowsOf columns)))

/-- Whether data hold the design of a group, whose columns have the names of its coefficients, and
the places of the observations among its levels, for the origins of the observations in a table. -/
structure HoldsGroup (s : Specification) {raw : Frame} (origin : Fin s.data.rows → Fin raw.rows)
    (data : BuildData) (group : Group) : Prop where
  /-- There is a column for each coefficient: a constant one for the implicit intercept, the others
  labelled by the variables of a term. -/
  columns : ∃ columns slopes, columns =
      (if group.term.intercept then DesignColumn.ones "Intercept" :: slopes else slopes) ∧
    columns.map DesignColumn.label = group.coefficients ∧
    (∀ column ∈ slopes, ∃ term ∈ group.term.terms, column.IsLabelled s.data term.names) ∧
    ∀ k (inside : k < columns.length), data.lookup (Variable.effectDesign group.id (k + 1)).name =
      some (.reals columns[k].cells.toList)
  /-- The levels are those of the observations, each of which occurs. -/
  levels : ∃ places : Fin s.data.rows → Fin group.levels.length,
    data.lookup (Variable.levelIndex group.id).name =
      some (.ints (List.ofFn fun n => (places n : Int) + 1)) ∧
    (∃ given, raw.column? group.factor = some given ∧
      ∀ n, given.level? (origin n) = some group.levels[places n]) ∧
    ∀ text ∈ group.levels, ∃ n, group.levels[places n] = text

variable {a : ModelArguments} {s : Specification}

/-- The generated data hold the design of the shared coefficients. -/
theorem holdsDesign (normal : IsNormal a s) {columns : List (DesignColumn Float s.data.rows)}
    (design : IsDesign s columns) {values : List (Variable × Datum)}
    (provided : AreProvided s columns (Program.dataBlock s) values) {data : BuildData}
    (kept : ∀ {name datum}, (ofValues values).lookup name = some datum →
      data.lookup name = some datum) : HoldsDesign s data := by
  have declared {v : Variable} (own : v ∈ (Program.designData s).flatMap Statement.declared) :
      ∃ datum, data.lookup v.name = some datum ∧ Provides s columns v datum := by
    have listed : v ∈ (Program.dataBlock s).flatMap Statement.declared := by
      simp only [Program.dataBlock, List.flatMap_append, List.mem_append]
      tauto
    obtain ⟨datum, found, provides⟩ := provided.exists_datum listed
    exact ⟨datum, kept found, provides⟩
  refine ⟨?_, columns, design.1, design.2.symm, fun column mem => ?_, fun dense => ?_⟩
  · obtain ⟨_, found, rfl⟩ := declared (v := .coefficients)
      (by simp [Program.designData, Statement.declared])
    rw [found, design.2, List.length_map]
  · obtain ⟨term, inside, product⟩ := Design.of_mem_matrix design.1 mem
    exact ⟨term, inside, normal.isLabelled (normal.named.terms term inside).named product⟩
  · obtain ⟨_, found, rfl⟩ := declared (v := .design)
      (by simp [Program.designData, Statement.declared, dense])
    exact found

/-- The generated data hold the design and the levels of a group. -/
theorem holdsGroup (normal : IsNormal a s) {raw : Frame} {origin : Fin s.data.rows → Fin raw.rows}
    (clean : Cleaning.Cleaned s.formula s.family s.autocorrelation raw s.data origin)
    {columns : List (DesignColumn Float s.data.rows)} {values : List (Variable × Datum)}
    (provided : AreProvided s columns (Program.dataBlock s) values) {data : BuildData}
    (kept : ∀ {name datum}, (ofValues values).lookup name = some datum →
      data.lookup name = some datum) {group : Group} (mem : group ∈ s.terms.groups) :
    HoldsGroup s origin data group := by
  have declared {v : Variable} (own : v ∈ (Program.groupData group).flatMap Statement.declared) :
      ∃ datum, data.lookup v.name = some datum ∧ Provides s columns v datum := by
    obtain ⟨statement, inside, own⟩ := List.mem_flatMap.mp own
    obtain ⟨datum, found, provides⟩ := provided.exists_datum
      (List.mem_flatMap.mpr ⟨statement, groupData_subset mem inside, own⟩)
    exact ⟨datum, kept found, provides⟩
  constructor
  case columns =>
    obtain ⟨own, made, labels⟩ := (normal.groups.built group mem).design
    have design := made
    simp only [Design.groupMatrix, bind_eq_ok, pure_eq_ok] at made
    obtain ⟨slopes, matrix, same⟩ := made
    have listed : group.term ∈ s.formula.groupTerms := by
      rw [← normal.groups.terms]
      exact List.mem_map_of_mem mem
    refine ⟨own, slopes, same.symm, labels.symm, fun column inside => ?_, fun k inside => ?_⟩
    · obtain ⟨term, among, product⟩ := Design.of_mem_matrix matrix inside
      have named := (normal.named.groupTerms _ listed).terms term among
      exact ⟨term, among, normal.isLabelled named.named product⟩
    · have below : k < group.size := by rwa [Group.size, labels, List.length_map]
      obtain ⟨_, found, other, there, number, columns, given, j, column, place, here, rfl⟩ :=
        declared (v := .effectDesign group.id (k + 1))
          (by simpa [Program.groupData, Statement.declared] using below)
      obtain rfl := normal.group_eq there mem number
      obtain rfl := Except.ok.inj (design.symm.trans given.1)
      obtain rfl := Nat.succ.inj place
      rw [found, (List.getElem?_eq_some_iff.mp here).choose_spec]
  case levels =>
    obtain ⟨places, placed, origins, occurs⟩ := normal.exists_level_origin clean mem
    refine ⟨places, ?_, origins, occurs⟩
    obtain ⟨_, found, other, there, number, index, given, rfl⟩ :=
      declared (v := .levelIndex group.id) (by simp [Program.groupData, Statement.declared])
    obtain rfl := normal.group_eq there mem number
    obtain rfl := Except.ok.inj (placed.symm.trans given)
    rw [found, List.map_ofFn]
    rfl

end BuildData

end Multilevel
