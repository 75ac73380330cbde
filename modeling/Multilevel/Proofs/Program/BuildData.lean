import Multilevel.Program.BuildData
import Multilevel.Proofs.Model.Specification
import Multilevel.Proofs.Program.Names

/-!
# What the data of a program hold

The data of a normalized specification are generated without failure, one value for each variable
that the data block declares, in the same order (`BuildData.generated_spec`). What each value is
follows from its variable (`BuildData.Provides`).
-/
namespace Multilevel

namespace Column

variable {rows : Nat}

/-- Numbers are read from a column of numbers. -/
theorem exists_numbers {column : Column rows} (numeric : column.isNumeric = true) :
    ∃ values, column.numbers = .ok values := by
  cases column <;> simp_all [isNumeric, numbers]

/-- The integers of a column of integers are its cells. -/
theorem IsInt.integers {column : Column rows} (integers : column.IsInt) :
    ∃ cells : Vector Int rows, BuildData.integers column = cells.toList := by
  cases column with
  | int cells => exact ⟨cells, rfl⟩
  | _ => cases integers

/-- A column with levels is a factor. -/
theorem exists_factor {column : Column rows} {levels : List String}
    (has : column.levels? = some levels) : ∃ codes, column = .factor levels codes := by
  cases column with
  | factor names codes =>
    obtain rfl := Option.some.inj has
    exact ⟨codes, rfl⟩
  | _ => cases has

end Column

namespace Specification.IsNormal

variable {a : ModelArguments} {s : Specification}

/-- No cell of the data has parts. -/
theorem hasCompound (normal : IsNormal a s) {name : String} {column : Column s.data.rows}
    (found : s.data.column? name = some column) : column.hasCompound = false := by
  rcases normal.taken found with numeric | ⟨levels, spanned⟩
  · cases column <;> simp_all [Column.isNumeric, Column.hasCompound]
  · obtain ⟨codes, rfl⟩ := Column.exists_factor spanned.levels?
    rfl

/-- The observations' places among the levels of a group. -/
theorem exists_groupIndex (normal : IsNormal a s) {group : Group} (mem : group ∈ s.terms.groups) :
    ∃ index : Vector (Fin group.levels.length) s.data.rows,
      s.data.groupIndex group.factor = .ok (index.toList.map fun level => level.val + 1) ∧
        ∃ column, s.data.column? group.factor = some column ∧
          ∀ row, column.level? row = some (group.levels.get (index.get row)) := by
  obtain ⟨column, found, levels⟩ := (normal.groups.built group mem).levels
  obtain ⟨codes, rfl⟩ := Column.exists_factor levels
  have each := normal.exists_level found rfl
  choose place here using each
  have same : codes.toList = (Vector.ofFn place).toList.map some := by
    apply List.ext_getElem
    · simp
    · intro k inside _
      simpa [Vector.get_eq_getElem] using here ⟨k, by simpa using inside⟩
  refine ⟨Vector.ofFn place, ?_, _, found, fun row => ?_⟩
  · simp only [Frame.groupIndex, bind_eq_ok, Frame.column_eq_ok]
    refine ⟨_, found, ?_⟩
    simp [same, Function.comp_def, pure, Except.pure]
  · rw [Column.level?_factor, here row]
    simp [Vector.get_eq_getElem]

/-- A group has levels. -/
theorem levels_pos (normal : IsNormal a s) {group : Group} (mem : group ∈ s.terms.groups) :
    0 < group.levels.length := by
  obtain ⟨index, _⟩ := normal.exists_groupIndex mem
  exact Nat.zero_lt_of_lt (index.get ⟨0, normal.rows_pos⟩).isLt

/-- A group has coefficients. -/
theorem size_pos (normal : IsNormal a s) {group : Group} (mem : group ∈ s.terms.groups) :
    0 < group.size := by
  obtain ⟨columns, design, labels⟩ := (normal.groups.built group mem).design
  have listed : group.term ∈ s.formula.groupTerms := by
    rw [← normal.groups.terms]
    exact List.mem_map_of_mem mem
  have some := Design.groupMatrix_ne_nil normal.hasLevels
    (normal.named.groupTerms _ listed).effects design
  rw [Group.size, labels, List.length_map]
  exact List.length_pos_iff.mpr some

/-- A group is told by its number. -/
theorem group_eq (normal : IsNormal a s) {first second : Group} (left : first ∈ s.terms.groups)
    (right : second ∈ s.terms.groups) (same : first.id = second.id) : first = second := by
  have distinct : (s.terms.groups.map Group.id).Nodup := by
    rw [normal.groups.ids]
    exact List.nodup_range'
  exact List.inj_on_of_nodup_map distinct left right same

end Specification.IsNormal

namespace BuildData

open Specification (IsNormal)

/-- The design columns of the shared coefficients. -/
def IsDesign (s : Specification) (columns : List (DesignColumn Float s.data.rows)) : Prop :=
  Design.matrix s.data.predictors s.formula.intercept s.formula.terms = .ok columns ∧
    s.terms.population = columns.map DesignColumn.label

/-- The design columns of a group. -/
def IsGroupDesign (s : Specification) (group : Group)
    (columns : List (DesignColumn Float s.data.rows)) : Prop :=
  Design.groupMatrix s.data.predictors group.term = .ok columns ∧
    group.coefficients = columns.map DesignColumn.label

/-- What the data hold under a variable, for the design columns of the shared coefficients. -/
def Provides (s : Specification) (columns : List (DesignColumn Float s.data.rows)) :
    Variable → Datum → Prop
  | .observations, datum => datum = .ofNat s.data.rows
  | .response, datum =>
    if s.family.distribution.responseKind = .real then
      ∃ values : Vector Float s.data.rows, datum = .reals values.toList
    else ∃ values : Vector Int s.data.rows, datum = .ints values.toList
  | .trials, datum => ∃ values : Vector Int s.data.rows, datum = .ints values.toList
  | .coefficients, datum => datum = .ofNat columns.length
  | .design, datum => datum = .matrix (rowsOf columns)
  | .nonzeroCount, datum => datum = .ofNat (sparse (rowsOf columns)).entries.length
  | .nonzeros, datum => datum = .reals (sparse (rowsOf columns)).entries
  | .nonzeroColumns, datum =>
    datum = .ints ((sparse (rowsOf columns)).columns.map Int.ofNat)
  | .rowStarts, datum => datum = .ints ((sparse (rowsOf columns)).starts.map Int.ofNat)
  | .levelCount i, datum =>
    ∃ group ∈ s.terms.groups, group.id = i ∧ datum = .ofNat group.levels.length
  | .effectCount i, datum => ∃ group ∈ s.terms.groups, group.id = i ∧ datum = .ofNat group.size
  | .levelIndex i, datum => ∃ group ∈ s.terms.groups, group.id = i ∧ ∃ index,
    s.data.groupIndex group.factor = .ok index ∧ datum = .ints (index.map Int.ofNat)
  | .effectDesign i k, datum => ∃ group ∈ s.terms.groups, group.id = i ∧ ∃ columns,
    IsGroupDesign s group columns ∧ ∃ j column, k = j + 1 ∧ columns[j]? = some column ∧
      datum = .reals column.cells.toList
  | .covarianceFactor i, datum => ∃ group ∈ s.terms.groups, group.id = i ∧ ∃ m rows,
    s.covariances.lookup group.factor = some m ∧ m.size = group.levels.length ∧
      m.cholesky = some rows ∧ datum = .matrix rows
  | .order, datum => ∃ a, s.autocorrelation = some a ∧ datum = .whole a.order
  | .lags, datum => ∃ a lags, s.autocorrelation = some a ∧ a.lags s.data = .ok lags ∧
    datum = .ints (lags.map Int.ofNat)
  | .knotCount _, datum => ∃ values : List Float, values ≠ [] ∧ datum = .ofNat values.length
  | .knots _, datum => ∃ values : List Float, values ≠ [] ∧ datum = .reals values
  | .priorOnly, datum => datum = .ofNat (if s.samplePrior = .only then 1 else 0)
  | _, _ => False

/-- Values for the variables that statements declare, each as its variable asks. -/
def AreProvided (s : Specification) (columns : List (DesignColumn Float s.data.rows))
    (statements : List Statement) (values : List (Variable × Datum)) : Prop :=
  values.map Prod.fst = statements.flatMap Statement.declared ∧
    ∀ entry ∈ values, Provides s columns entry.1 entry.2

variable {a : ModelArguments} {s : Specification}
  (columns : List (DesignColumn Float s.data.rows))

/-- Values for the statements of two lists, one after the other. -/
theorem AreProvided.append {columns : List (DesignColumn Float s.data.rows)}
    {first second : List Statement} {values more : List (Variable × Datum)}
    (left : AreProvided s columns first values) (right : AreProvided s columns second more) :
    AreProvided s columns (first ++ second) (values ++ more) := by
  refine ⟨by rw [List.map_append, List.flatMap_append, left.1, right.1], fun entry mem => ?_⟩
  rcases List.mem_append.mp mem with here | there
  · exact left.2 entry here
  · exact right.2 entry there

/-- The response is generated. -/
theorem outcome_spec (normal : IsNormal a s) {response : Column s.data.rows}
    (found : s.data.column? s.formula.response = some response) :
    ∃ datum, outcome s.family.distribution.responseKind response = .ok datum ∧
      Provides s columns .response datum := by
  obtain ⟨raw, origin, _, clean⟩ := normal.clean
  obtain ⟨column, here, numeric, integral⟩ := clean.response
  obtain rfl := Option.some.inj (here.symm.trans found)
  unfold outcome Provides
  by_cases real : s.family.distribution.responseKind = .real
  · obtain ⟨numbers, read⟩ := Column.exists_numbers numeric
    simp only [real, ↓reduceIte, bind_eq_ok, pure_eq_ok]
    exact ⟨_, ⟨numbers, read, rfl⟩, numbers, rfl⟩
  · obtain ⟨cells, same⟩ := (integral real).integers
    simp only [real, ↓reduceIte, pure_eq_ok]
    exact ⟨_, rfl, cells, congrArg Datum.ints same⟩

/-- The number of trials is generated. -/
theorem trialsData_spec (normal : IsNormal a s) :
    ∃ values, trialsData s = .ok values ∧
      values.map Prod.fst = (if s.formula.trials.isSome then [.trials] else []) ∧
      ∀ entry ∈ values, Provides s columns entry.1 entry.2 := by
  unfold trialsData
  cases trials : s.formula.trials with
  | none => exact ⟨[], rfl, rfl, by simp⟩
  | some name =>
    obtain ⟨raw, origin, _, clean⟩ := normal.clean
    have counted := normal.trials.mp (Option.isSome_of_eq_some trials)
    obtain ⟨other, column, same, found, integral⟩ := clean.trials counted
    obtain rfl := Option.some.inj (trials.symm.trans same)
    obtain ⟨cells, made⟩ := integral.integers
    simp only [bind_eq_ok, pure_eq_ok, Frame.column_eq_ok]
    refine ⟨_, ⟨column, found, rfl⟩, rfl, fun entry mem => ?_⟩
    obtain rfl := List.mem_singleton.mp mem
    exact ⟨cells, congrArg Datum.ints made⟩

/-- The response and the number of trials are generated. -/
theorem responseData_spec (normal : IsNormal a s) :
    ∃ values, responseData s = .ok values ∧
      AreProvided s columns (Program.responseData s) values := by
  obtain ⟨raw, origin, _, clean⟩ := normal.clean
  obtain ⟨response, found, _⟩ := clean.response
  obtain ⟨datum, made, first⟩ := outcome_spec columns normal found
  obtain ⟨trials, counted, names, others⟩ := trialsData_spec columns normal
  refine ⟨(.response, datum) :: trials, ?_, ?_, ?_⟩
  · simp only [responseData, bind_eq_ok, pure_eq_ok, Frame.column_eq_ok]
    exact ⟨response, found, datum, made, trials, counted, rfl⟩
  · rw [List.map_cons, names]
    unfold Program.responseData
    split <;> split <;> rfl
  · exact List.forall_mem_cons.mpr ⟨first, others⟩

/-- The design is generated. -/
theorem designData_spec {columns : List (DesignColumn Float s.data.rows)}
    (design : IsDesign s columns) :
    ∃ values, designData s = .ok values ∧
      AreProvided s columns (Program.designData s) values := by
  have sparse : (s.sparse && !columns.isEmpty) = s.isSparse := by
    rw [Specification.isSparse, Specification.hasSlopes, design.2]
    simp
  refine ⟨_, by simp only [designData, design.1, bind_eq_ok, pure_eq_ok]; exact ⟨_, rfl, rfl⟩, ?_⟩
  unfold AreProvided Program.designData
  rw [sparse]
  cases s.isSparse <;> simp [Provides, Statement.declared]

/-- The design columns of a group as data. -/
theorem effectData_spec {group : Group} (mem : group ∈ s.terms.groups)
    {own : List (DesignColumn Float s.data.rows)} (design : IsGroupDesign s group own) :
    AreProvided s columns
      ((List.range group.size).map fun k =>
        .declare (.vector {} Variable.observations) (.effectDesign group.id (k + 1)) none "")
      (own.zipIdx.map fun (column, k) =>
        (.effectDesign group.id (k + 1), .reals column.cells.toList)) := by
  constructor
  · have size : group.size = own.length := by rw [Group.size, design.2, List.length_map]
    have names : (own.zipIdx.map fun (column, k) => (Variable.effectDesign group.id (k + 1),
        Datum.reals column.cells.toList)).map Prod.fst =
          (own.zipIdx.map Prod.snd).map fun k => Variable.effectDesign group.id (k + 1) := by
      rw [List.map_map, List.map_map]
      rfl
    rw [names, List.zipIdx_map_snd, size, List.flatMap_map, List.map_eq_flatMap,
      List.range_eq_range']
    rfl
  · intro entry inside
    obtain ⟨⟨column, k⟩, here, rfl⟩ := List.mem_map.mp inside
    exact ⟨group, mem, rfl, own, design, k, column, rfl, List.mem_zipIdx_iff_getElem?.mp here, rfl⟩

/-- The Cholesky factor of a group's known covariance as data. -/
theorem covarianceData_spec (normal : IsNormal a s) {group : Group}
    (mem : group ∈ s.terms.groups) :
    AreProvided s columns
      (if group.hasCovariance then
        [.declare (.matrix (Variable.levelCount group.id) (Variable.levelCount group.id))
          (.covarianceFactor group.id) none "cholesky factor of known covariance"]
      else [])
      (if group.hasCovariance then
        match (s.covariances.lookup group.factor).bind Covariance.cholesky with
        | some rows => [(.covarianceFactor group.id, .matrix rows)]
        | none => []
      else []) := by
  by_cases known : group.hasCovariance = true
  · obtain ⟨m, rows, found, size, factor⟩ := normal.covariances group mem known
    rw [if_pos known, if_pos known, found, Option.bind_some, factor]
    refine ⟨rfl, fun entry inside => ?_⟩
    obtain rfl := List.mem_singleton.mp inside
    exact ⟨group, mem, rfl, m, rows, found, size, factor, rfl⟩
  · rw [if_neg known, if_neg known]
    exact ⟨rfl, by simp⟩

/-- The data of a group are generated. -/
theorem groupData_spec (normal : IsNormal a s) {group : Group} (mem : group ∈ s.terms.groups) :
    ∃ values, groupData s group = .ok values ∧
      AreProvided s columns (Program.groupData group) values := by
  obtain ⟨own, design, labels⟩ := (normal.groups.built group mem).design
  obtain ⟨index, placed, _⟩ := normal.exists_groupIndex mem
  have counts : AreProvided s columns
      [.comment s!"data of group-level term {group.id} ({group.factor})",
        .declare (.int (Program.atLeast "1")) (.levelCount group.id) none
          "number of grouping levels",
        .declare (.int (Program.atLeast "1")) (.effectCount group.id) none
          "number of coefficients per level",
        .declare (.ints Variable.observations (Program.atLeast "1")) (.levelIndex group.id) none
          "grouping indicator per observation"]
      [(.levelCount group.id, .ofNat group.levels.length),
        (.effectCount group.id, .ofNat group.size),
        (.levelIndex group.id,
          .ints ((index.toList.map fun level => level.val + 1).map Int.ofNat))] := by
    refine ⟨rfl, ?_⟩
    simp only [List.forall_mem_cons, List.not_mem_nil, false_implies, implies_true, and_true]
    exact ⟨⟨group, mem, rfl, rfl⟩, ⟨group, mem, rfl, rfl⟩, group, mem, rfl, _, placed, rfl⟩
  refine ⟨_, ?_, (counts.append (effectData_spec columns mem ⟨design, labels⟩)).append
    (covarianceData_spec columns normal mem)⟩
  simp only [groupData, bind_eq_ok, liftM_eq_mapError, mapError_eq_ok, pure_eq_ok]
  exact ⟨own, design, _, placed, rfl⟩

/-- The data of the residuals are generated. -/
theorem lagData_spec (normal : IsNormal a s) :
    ∃ values, lagData s = .ok values ∧ AreProvided s columns (Program.lagData s) values := by
  unfold lagData Program.lagData
  cases structured : s.autocorrelation with
  | none => exact ⟨[], rfl, rfl, by simp⟩
  | some a =>
    have series : ∃ keys, a.series s.data = .ok keys := by
      unfold Autocorrelation.series
      cases grouped : a.group with
      | none => exact ⟨_, rfl⟩
      | some name =>
        have needed : name ∈ Cleaning.neededColumns s.formula s.autocorrelation := by
          simp [Cleaning.neededColumns, structured, Autocorrelation.names, grouped]
        obtain ⟨column, found⟩ := normal.exists_column needed
        have plain := normal.hasCompound found
        simp only [bind_eq_ok, pure_eq_ok, Frame.column_eq_ok, ↓throw_bind, ite_throw_eq_ok]
        exact ⟨_, column, found, by simp [plain], rfl⟩
    obtain ⟨keys, made⟩ := series
    refine ⟨[(.order, .whole a.order), (.lags,
      .ints ((Autocorrelation.lagsFrom a.order.toInt.toNat 1 keys).map Int.ofNat))], ?_, rfl, ?_⟩
    · simp only [Autocorrelation.lags, bind_eq_ok, liftM_eq_mapError, mapError_eq_ok, pure_eq_ok]
      exact ⟨_, ⟨keys, made, rfl⟩, rfl⟩
    · simp only [List.forall_mem_cons, List.not_mem_nil, false_implies, implies_true, and_true]
      refine ⟨⟨a, structured, rfl⟩, a, _, structured, ?_, rfl⟩
      simp only [Autocorrelation.lags, bind_eq_ok, pure_eq_ok]
      exact ⟨keys, made, rfl⟩

/-- The data of knots. -/
theorem knotData_spec (name : String) {values : List Float} (some : values ≠ []) :
    AreProvided s columns (Program.knotData name) (knotData name values) := by
  refine ⟨rfl, ?_⟩
  simp only [knotData, List.forall_mem_cons, List.not_mem_nil, false_implies, implies_true,
    and_true, Provides]
  exact ⟨⟨values, some, rfl⟩, ⟨values, some, rfl⟩⟩

/-- Values for the statements of several lists. -/
theorem exists_mapM_areProvided {α ε : Type} {items : List α}
    (make : α → Except ε (List (Variable × Datum))) {block : α → List Statement}
    (each : ∀ item ∈ items, ∃ values, make item = .ok values ∧
      AreProvided s columns (block item) values) :
    ∃ lists, items.mapM make = .ok lists ∧
      AreProvided s columns (items.flatMap block) lists.flatten := by
  induction items with
  | nil => exact ⟨[], rfl, rfl, by simp⟩
  | cons item rest ih =>
    obtain ⟨values, made, first⟩ := each item (by simp)
    obtain ⟨lists, others, more⟩ := ih fun other mem => each other (by simp [mem])
    refine ⟨values :: lists, ?_, first.append more⟩
    rw [mapM_eq_ok] at others ⊢
    exact .cons made others

/-- The data are generated, one value for each declared variable in the same order; of the knots,
only the flag of the priors comes after them. -/
theorem generated_spec (normal : IsNormal a s) {columns : List (DesignColumn Float s.data.rows)}
    (design : IsDesign s columns) :
    ∃ values before, generated s = .ok values ∧
      AreProvided s columns (Program.dataBlock s) values ∧
      values = before ++ (s.knots.flatMap fun (name, values) => knotData name values) ++
        [(.priorOnly, .ofNat (if s.samplePrior = .only then 1 else 0))] := by
  obtain ⟨response, responded, first⟩ := responseData_spec columns normal
  obtain ⟨shared, designed, second⟩ := designData_spec design
  obtain ⟨groups, grouped, third⟩ := exists_mapM_areProvided columns (groupData s)
    fun group mem => groupData_spec columns normal mem
  obtain ⟨lags, lagged, fourth⟩ := lagData_spec columns normal
  have knots : AreProvided s columns (s.knots.flatMap fun (name, _) => Program.knotData name)
      (s.knots.flatMap fun (name, values) => knotData name values) := by
    obtain ⟨lists, made, provided⟩ := exists_mapM_areProvided columns
      (fun entry : String × List Float => (pure (knotData entry.1 entry.2) : Except Fault _))
      fun entry mem => ⟨_, rfl, knotData_spec columns entry.1 (normal.knots entry mem)⟩
    obtain rfl := Except.ok.inj ((List.mapM_pure).symm.trans made)
    exact provided
  have rows : AreProvided s columns
      [.declare (.int (Program.atLeast "1")) .observations none "number of observations"]
      [(.observations, .ofNat s.data.rows)] := by
    refine ⟨rfl, fun entry mem => ?_⟩
    obtain rfl := List.mem_singleton.mp mem
    rfl
  have flag : AreProvided s columns
      [.declare (.int {}) .priorOnly none "should the likelihood be ignored?"]
      [(.priorOnly, .ofNat (if s.samplePrior = .only then 1 else 0))] := by
    refine ⟨rfl, fun entry mem => ?_⟩
    obtain rfl := List.mem_singleton.mp mem
    rfl
  refine ⟨_, _, ?_, (((((rows.append first).append second).append third).append fourth).append
    knots).append flag, rfl⟩
  simp only [generated, bind_eq_ok, liftM_eq_mapError, mapError_eq_ok, pure_eq_ok]
  exact ⟨response, responded, shared, designed, groups, grouped, lags, lagged, rfl⟩

/-- Under the name of a variable, its last value is found. -/
theorem lookup_ofValues (values : List (Variable × Datum)) (v : Variable) :
    (ofValues values).lookup v.name = values.reverse.lookup v := by
  rw [ofValues, Entries.lookup_putAll, ← List.map_reverse]
  induction values.reverse with
  | nil => rfl
  | cons first rest ih =>
    obtain ⟨other, datum⟩ := first
    rw [List.map_cons, List.lookup_cons, List.lookup_cons, ih]
    by_cases same : v = other
    · subst same
      simp
    · have names : v.name ≠ other.name := fun equal => same (Variable.name_injective equal)
      rw [beq_eq_false_iff_ne.mpr same, beq_eq_false_iff_ne.mpr names]

/-- A declared variable has a value as it asks. -/
theorem AreProvided.exists_datum {columns : List (DesignColumn Float s.data.rows)}
    {statements : List Statement} {values : List (Variable × Datum)}
    (provided : AreProvided s columns statements values) {v : Variable}
    (declared : v ∈ statements.flatMap Statement.declared) :
    ∃ datum, (ofValues values).lookup v.name = some datum ∧ Provides s columns v datum := by
  rw [← provided.1] at declared
  rw [lookup_ofValues]
  obtain ⟨entry, mem, rfl⟩ := List.mem_map.mp declared
  cases found : values.reverse.lookup entry.1 with
  | none =>
    rw [List.lookup_eq_none_iff] at found
    have differs := found entry (List.mem_reverse.mpr mem)
    simp at differs
  | some datum =>
    obtain ⟨before, after, split, _⟩ := List.lookup_eq_some_iff.mp found
    have inside : (entry.1, datum) ∈ values := by
      rw [← List.mem_reverse, split]
      simp
    exact ⟨datum, rfl, provided.2 _ inside⟩

end BuildData

end Multilevel
