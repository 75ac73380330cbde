import Mathlib
import Multilevel.Proofs.Program.DataBlock

/-!
# Values at the start of a program

The exact values that the variables of a normalized specification hold once its data are read and
its coefficients are drawn (`Specification.start_holds`).
-/
namespace Multilevel

open Exact (tabulate)

/-- The exact entry of an observation in one of several design columns, both counted from zero. -/
def DesignColumn.exactEntry {rows : Nat} (columns : List (DesignColumn Float rows))
    (n k : Nat) : Rat :=
  match columns[k]? with
  | some column => Number.exact (column.cells[n]?.getD 0.0)
  | none => 0

namespace DesignColumn

variable {rows : Nat}

/-- The entry of an observation in a column that there is. -/
theorem exactEntry_eq {columns : List (DesignColumn Float rows)} (n : Fin rows)
    (k : Fin columns.length) :
    exactEntry columns n k = Number.exact ((columns.get k).cells.get n) := by
  simp [exactEntry, Vector.get_eq_getElem]

/-- A column is the array of its entries. -/
theorem exact_column {columns : List (DesignColumn Float rows)} {k : Nat}
    {column : DesignColumn Float rows} (found : columns[k]? = some column) :
    column.cells.toList.map Number.exact = tabulate rows fun n => exactEntry columns n k := by
  rw [Exact.toList_eq_tabulate column.cells 0.0, Exact.map_tabulate]
  simp [exactEntry, found]

/-- A matrix given by its columns is the array of the rows of their entries. -/
theorem exact_rowsOf (columns : List (DesignColumn Float rows)) :
    (BuildData.rowsOf columns).map (fun row => row.map Number.exact) =
      tabulate rows fun n => tabulate columns.length (exactEntry columns n) := by
  apply List.ext_getElem
  · simp [BuildData.rowsOf]
  · intro n inside _
    have below : n < rows := by simpa [BuildData.rowsOf] using inside
    apply List.ext_getElem
    · simp [BuildData.rowsOf, tabulate]
    · intro k within _
      have column : k < columns.length := by simpa [BuildData.rowsOf] using within
      simp only [BuildData.rowsOf, tabulate, List.getElem_map, List.getElem_finRange,
        List.getElem_range]
      exact (exactEntry_eq ⟨n, below⟩ ⟨k, column⟩).symm

/-- Every row of a matrix given by its columns has one entry for each column. -/
theorem length_of_mem_rowsOf {columns : List (DesignColumn Float rows)} {row : List Float}
    (mem : row ∈ BuildData.rowsOf columns) : row.length = columns.length := by
  obtain ⟨n, _, rfl⟩ := List.mem_map.mp mem
  exact List.length_map _

end DesignColumn

namespace Specification

/-- The matrices of a specification: its shared columns, and for each group its own columns and the
level of each observation, counted from zero. -/
structure Matrices (s : Specification) where
  /-- The columns of the shared coefficients. -/
  columns : List (DesignColumn Float s.data.rows)
  /-- The columns of a group. -/
  own : Group → List (DesignColumn Float s.data.rows)
  /-- The levels of a group's observations. -/
  places : Group → Vector Nat s.data.rows

namespace Matrices

variable {s : Specification}

/-- Whether the matrices are those that the data give. -/
structure IsGiven (m : Matrices s) : Prop where
  /-- The shared columns are those of the formula. -/
  columns : BuildData.IsDesign s m.columns
  /-- The columns of a group are those of its term. -/
  own : ∀ group ∈ s.terms.groups, BuildData.IsGroupDesign s group (m.own group)
  /-- The levels are those of the grouping factor. -/
  places : ∀ group ∈ s.terms.groups,
    s.data.groupIndex group.factor = .ok ((m.places group).toList.map (· + 1))
  /-- There are no other levels. -/
  inside : ∀ group ∈ s.terms.groups, ∀ n : Fin s.data.rows,
    (m.places group).get n < group.levels.length

/-- The level of an observation, for any number. -/
def place (m : Matrices s) (group : Group) (n : Nat) : Nat := (m.places group)[n]?.getD 0

/-- The linear predictor of an observation for an intercept and a draw. -/
def predictor (m : Matrices s) (draw : Draw) (intercept : Rat) (n : Fin s.data.rows) : Rat :=
  intercept + ∑ k : Fin m.columns.length, Number.exact m.columns[k].cells[n] * draw.slopes k +
    (s.terms.groups.map fun group => ∑ k : Fin (m.own group).length,
      draw.effects group.id (m.places group)[n] k *
        Number.exact (m.own group)[k].cells[n]).sum

end Matrices

variable {a : ModelArguments} {s : Specification}

/-- The data of a normalized specification give its matrices. -/
theorem IsNormal.exists_matrices (normal : IsNormal a s) : ∃ m : Matrices s, m.IsGiven := by
  classical
  obtain ⟨columns, design⟩ := normal.design
  have each : ∀ group : Group, ∃ (own : List (DesignColumn Float s.data.rows))
      (places : Vector Nat s.data.rows), group ∈ s.terms.groups →
        BuildData.IsGroupDesign s group own ∧
        s.data.groupIndex group.factor = .ok (places.toList.map (· + 1)) ∧
        ∀ n : Fin s.data.rows, places[n] < group.levels.length := by
    intro group
    by_cases mem : group ∈ s.terms.groups
    · obtain ⟨own, made, labels⟩ := (normal.groups.built group mem).design
      obtain ⟨index, placed, _⟩ := normal.exists_groupIndex mem
      refine ⟨own, index.map Fin.val, fun _ => ⟨⟨made, labels⟩, ?_, fun n => ?_⟩⟩
      · rw [placed, Vector.toList_map, List.map_map]
        rfl
      · simp
    · exact ⟨[], Vector.replicate _ 0, fun here => absurd here mem⟩
  choose own places given using each
  exact ⟨⟨columns, own, places⟩, design, fun group mem => (given group mem).1,
    fun group mem => (given group mem).2.1, fun group mem => (given group mem).2.2⟩

/-- A group is found by its number. -/
theorem IsNormal.find?_group (normal : IsNormal a s) {group : Group}
    (mem : group ∈ s.terms.groups) :
    s.terms.groups.find? (fun other => other.id = group.id) = some group := by
  cases found : s.terms.groups.find? (fun other => other.id = group.id) with
  | none =>
    have differs := List.find?_eq_none.mp found group mem
    simp at differs
  | some other =>
    have same := List.find?_some found
    rw [normal.group_eq (List.mem_of_find?_eq_some found) mem (by simpa using same)]

/-- What the variables hold that the linear predictor is computed from. -/
structure Holds (m : Matrices s) (draw : Draw) (values : Values) : Prop where
  observations : values .observations = some (.int s.data.rows)
  coefficients : values .coefficients = some (.int m.columns.length)
  design : s.isSparse = false → values .design =
    some (.matrix (tabulate s.data.rows fun n =>
      tabulate m.columns.length (DesignColumn.exactEntry m.columns n)))
  entries : s.isSparse = true → values .nonzeros =
    some (.vector ((BuildData.sparse (BuildData.rowsOf m.columns)).entries.map Number.exact))
  entryColumns : s.isSparse = true → values .nonzeroColumns =
    some (.ints ((BuildData.sparse (BuildData.rowsOf m.columns)).columns.map Int.ofNat))
  rowStarts : s.isSparse = true → values .rowStarts =
    some (.ints ((BuildData.sparse (BuildData.rowsOf m.columns)).starts.map Int.ofNat))
  slopes : s.hasSlopes = true → values .slopes =
    some (.vector (tabulate m.columns.length draw.slopes))
  intercept : s.terms.intercept = true → values .temporaryIntercept = some (.real draw.intercept)
  levels : ∀ group ∈ s.terms.groups,
    values (.levelCount group.id) = some (.int group.levels.length)
  places : ∀ group ∈ s.terms.groups, values (.levelIndex group.id) =
    some (.ints (tabulate s.data.rows fun n => ((m.place group n + 1 : Nat) : Int)))
  columns : ∀ group ∈ s.terms.groups, ∀ k < group.size,
    values (.effectDesign group.id (k + 1)) = some (.vector (tabulate s.data.rows fun n =>
      DesignColumn.exactEntry (m.own group) n k))
  effects : ∀ group ∈ s.terms.groups, values (.effects group.id) =
    some (.matrix (tabulate group.levels.length fun level =>
      tabulate group.size (draw.effects group.id level)))

/-- Whether the linear predictor is computed from a variable. -/
def IsInput : Variable → Prop
  | .observations | .coefficients | .design | .nonzeros | .nonzeroColumns | .rowStarts | .slopes
  | .temporaryIntercept | .levelCount _ | .levelIndex _ | .effectDesign _ _ | .effects _ => True
  | _ => False

/-- Values that agree on these variables hold the same. -/
theorem Holds.of_agree {m : Matrices s} {draw : Draw} {values after : Values}
    (holds : Holds m draw values) (same : ∀ v, IsInput v → after v = values v) :
    Holds m draw after where
  observations := (same .observations trivial).trans holds.observations
  coefficients := (same .coefficients trivial).trans holds.coefficients
  design dense := (same .design trivial).trans (holds.design dense)
  entries sparse := (same .nonzeros trivial).trans (holds.entries sparse)
  entryColumns sparse := (same .nonzeroColumns trivial).trans (holds.entryColumns sparse)
  rowStarts sparse := (same .rowStarts trivial).trans (holds.rowStarts sparse)
  slopes sloped := (same .slopes trivial).trans (holds.slopes sloped)
  intercept shifted := (same .temporaryIntercept trivial).trans (holds.intercept shifted)
  levels group mem := (same (.levelCount group.id) trivial).trans (holds.levels group mem)
  places group mem := (same (.levelIndex group.id) trivial).trans (holds.places group mem)
  columns group mem k inside :=
    (same (.effectDesign group.id (k + 1)) trivial).trans (holds.columns group mem k inside)
  effects group mem := (same (.effects group.id) trivial).trans (holds.effects group mem)

section Start

variable {m : Matrices s} {values : List (Variable × Datum)}
  (provided : BuildData.AreProvided s m.columns (Program.dataBlock s) values)

include provided

/-- A declared variable of the data holds the exact value of its datum. -/
theorem exists_value {v : Variable}
    (declared : v ∈ (Program.dataBlock s).flatMap Statement.declared) :
    ∃ datum, (BuildData.ofValues values).values v = datum.exact? ∧
      BuildData.Provides s m.columns v datum := by
  obtain ⟨datum, found, provides⟩ := provided.exists_datum declared
  exact ⟨datum, by rw [BuildData.values, found, Option.bind_some], provides⟩

/-- A declared variable of the design holds the exact value of its datum. -/
theorem exists_designValue {v : Variable}
    (declared : v ∈ (Program.designData s).flatMap Statement.declared) :
    ∃ datum, (BuildData.ofValues values).values v = datum.exact? ∧
      BuildData.Provides s m.columns v datum := by
  refine exists_value provided ?_
  simp only [Program.dataBlock, List.flatMap_append, List.mem_append]
  tauto

/-- A declared variable of a group's data holds the exact value of its datum. -/
theorem exists_groupValue {group : Group} (mem : group ∈ s.terms.groups) {v : Variable}
    (declared : v ∈ (Program.groupData group).flatMap Statement.declared) :
    ∃ datum, (BuildData.ofValues values).values v = datum.exact? ∧
      BuildData.Provides s m.columns v datum := by
  obtain ⟨statement, inside, own⟩ := List.mem_flatMap.mp declared
  exact exists_value provided
    (List.mem_flatMap.mpr ⟨statement, BuildData.groupData_subset mem inside, own⟩)

/-- The places of a group's observations at the start. -/
theorem start_places (normal : IsNormal a s) (given : m.IsGiven) {group : Group}
    (mem : group ∈ s.terms.groups) :
    (BuildData.ofValues values).values (.levelIndex group.id) =
      some (.ints (tabulate s.data.rows fun n => ((m.place group n + 1 : Nat) : Int))) := by
  obtain ⟨_, holds, other, there, same, index, placed, rfl⟩ := exists_groupValue provided mem
    (v := .levelIndex group.id) (by simp [Program.groupData, Statement.declared])
  obtain rfl := normal.group_eq there mem same
  obtain rfl := Except.ok.inj ((given.places _ there).symm.trans placed)
  rw [holds, Datum.exact?, List.map_map, Exact.toList_eq_tabulate (m.places other) 0,
    Exact.map_tabulate]
  rfl

/-- The design columns of a group at the start. -/
theorem start_columns (normal : IsNormal a s) (given : m.IsGiven) {group : Group}
    (mem : group ∈ s.terms.groups) {k : Nat} (inside : k < group.size) :
    (BuildData.ofValues values).values (.effectDesign group.id (k + 1)) =
      some (.vector (tabulate s.data.rows fun n =>
        DesignColumn.exactEntry (m.own group) n k)) := by
  obtain ⟨_, holds, other, there, same, own, made, j, column, number, found, rfl⟩ :=
    exists_groupValue provided mem (v := .effectDesign group.id (k + 1))
      (by simpa [Program.groupData, Statement.declared] using inside)
  obtain rfl := normal.group_eq there mem same
  obtain rfl := Except.ok.inj ((given.own _ there).1.symm.trans made.1)
  obtain rfl := Nat.succ.inj number
  rw [holds, Datum.exact?, DesignColumn.exact_column found]

/-- The variables of the linear predictor hold what the data and the draw say. -/
theorem start_holds (normal : IsNormal a s) (given : m.IsGiven) (draw : Draw) :
    Holds m draw (s.start (BuildData.ofValues values) draw) := by
  have population : s.terms.population.length = m.columns.length := by
    rw [given.columns.2, List.length_map]
  constructor
  case observations =>
    obtain ⟨_, holds, rfl⟩ := exists_value provided (v := .observations)
      (by simp [Program.dataBlock, Statement.declared])
    exact holds
  case coefficients =>
    obtain ⟨_, holds, rfl⟩ := exists_designValue provided (v := .coefficients)
      (by simp [Program.designData, Statement.declared])
    exact holds
  case design =>
    intro dense
    obtain ⟨_, holds, rfl⟩ := exists_designValue provided (v := .design)
      (by simp [Program.designData, Statement.declared, dense])
    rw [← DesignColumn.exact_rowsOf]
    exact holds
  case entries =>
    intro sparse
    obtain ⟨_, holds, rfl⟩ := exists_designValue provided (v := .nonzeros)
      (by simp [Program.designData, Statement.declared, sparse])
    exact holds
  case entryColumns =>
    intro sparse
    obtain ⟨_, holds, rfl⟩ := exists_designValue provided (v := .nonzeroColumns)
      (by simp [Program.designData, Statement.declared, sparse])
    exact holds
  case rowStarts =>
    intro sparse
    obtain ⟨_, holds, rfl⟩ := exists_designValue provided (v := .rowStarts)
      (by simp [Program.designData, Statement.declared, sparse])
    exact holds
  case slopes =>
    intro sloped
    rw [start, if_pos sloped, population]
  case intercept =>
    intro shifted
    rw [start, if_pos shifted]
  case levels =>
    intro group mem
    obtain ⟨_, holds, other, there, same, rfl⟩ := exists_groupValue provided mem
      (v := .levelCount group.id) (by simp [Program.groupData, Statement.declared])
    obtain rfl := normal.group_eq there mem same
    exact holds
  case places => exact fun group mem => start_places provided normal given mem
  case columns => exact fun group mem k inside => start_columns provided normal given mem inside
  case effects =>
    intro group mem
    rw [start, normal.find?_group mem]
    rfl

end Start

end Specification

end Multilevel
