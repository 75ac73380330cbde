import Multilevel.Proofs.Data.Lags
import Multilevel.Proofs.Program.BuildData
import Multilevel.Proofs.Program.Sparse

/-!
# The data block and the data agree

The variables that the data block declares are those that the data hold a value for, in the order
of their first declaration, and every value fits its declaration when the declared sizes are read
from the same data (`BuildData.fitsAll_dataBlock`).
-/
namespace Multilevel

/-- The integer that data hold under a variable. -/
def BuildData.whole? (data : BuildData) (v : Variable) : Option Int :=
  match data.lookup v.name with
  | some (.whole n) => some n.toInt
  | _ => none

/-- The size that an expression of a declaration stands for, read from data. -/
def Expr.size? (data : BuildData) : Expr → Option Int
  | var v => data.whole? v
  | literal digits => (Text.natural? digits).map Int.ofNat
  | binary .plus left right => do return (← left.size? data) + (← right.size? data)
  | _ => none

/-- A number keeps bounds. -/
structure Bounds.Admits (bounds : Bounds) (x : Rat) : Prop where
  /-- It is not below the lower bound. -/
  lower : ∀ text ∈ bounds.lower, ∃ n, Text.integer? text = some n ∧ (n : Rat) ≤ x
  /-- It is not above the upper bound. -/
  upper : ∀ text ∈ bounds.upper, ∃ n, Text.integer? text = some n ∧ x ≤ (n : Rat)

/-- A datum is of a declared type: of its kind, of the lengths read from data, and within its
bounds. -/
def VariableType.Fits (data : BuildData) : VariableType → Datum → Prop
  | int bounds, .whole n => bounds.Admits n.toInt
  | vector bounds size, .reals values => size.size? data = some (values.length : Int) ∧
    ∀ x ∈ values, bounds.Admits (Number.exact x)
  | matrix rows columns, .matrix cells => rows.size? data = some (cells.length : Int) ∧
    ∃ width : Nat, columns.size? data = some (width : Int) ∧ ∀ row ∈ cells, row.length = width
  | ints size bounds, .ints values => size.size? data = some (values.length : Int) ∧
    ∀ n ∈ values, bounds.Admits n
  | _, _ => False

/-- Without bounds every number is admitted. -/
theorem Bounds.admits_of_none (x : Rat) : Bounds.Admits {} x := ⟨by simp, by simp⟩

/-- The bound of a count that may be none. -/
theorem Text.integer?_zero : integer? "0" = some ((0 : Nat) : Int) := by decide

/-- The bound of a count that may not be none. -/
theorem Text.integer?_one : integer? "1" = some ((1 : Nat) : Int) := by decide

/-- Integers from a bound on are admitted. -/
theorem Bounds.admits_atLeast {text : String} {bound n : Int}
    (read : Text.integer? text = some bound) (above : bound ≤ n) :
    (Program.atLeast text).Admits n := by
  refine ⟨fun other same => ?_, by simp [Program.atLeast]⟩
  obtain rfl := Option.some.inj same
  exact ⟨bound, read, by exact_mod_cast above⟩

/-- A natural number from a bound on is of the type of integers so bounded. -/
theorem VariableType.fits_ofNat (data : BuildData) {text : String} {bound n : Nat}
    (read : Text.integer? text = some (bound : Int)) (above : bound ≤ n) :
    VariableType.Fits data (.int (Program.atLeast text)) (.ofNat n) :=
  Bounds.admits_atLeast read (Int.ofNat_le.mpr above)

namespace BuildData

/-- Every entry of a packed design has a column. -/
theorem length_sparse_columns (rows : List (List Float)) :
    (sparse rows).columns.length = (sparse rows).entries.length := by
  simp [sparse, List.length_flatMap]

/-- Every declared variable has a value in the data that fits its declaration. -/
def FitsAll (data : BuildData) (statements : List Statement) : Prop :=
  ∀ type v value note, Statement.declare type v value note ∈ statements →
    ∃ datum, data.lookup v.name = some datum ∧ type.Fits data datum

/-- The declarations of two lists are fitted if those of each are. -/
theorem FitsAll.append {data : BuildData} {first second : List Statement}
    (left : FitsAll data first) (right : FitsAll data second) : FitsAll data (first ++ second) := by
  intro type v value note mem
  rcases List.mem_append.mp mem with here | there
  · exact left type v value note here
  · exact right type v value note there

/-- The declarations of several lists are fitted if those of each are. -/
theorem FitsAll.flatMap {α : Type} {data : BuildData} {items : List α} {block : α → List Statement}
    (each : ∀ item ∈ items, FitsAll data (block item)) : FitsAll data (items.flatMap block) := by
  intro type v value note mem
  obtain ⟨item, inside, here⟩ := List.mem_flatMap.mp mem
  exact each item inside type v value note here

/-- A declared variable is among those that the statements declare. -/
theorem declared_of_mem {type : VariableType} {v : Variable} {value : Option Expr} {note : String}
    {statements : List Statement} (mem : Statement.declare type v value note ∈ statements) :
    v ∈ statements.flatMap Statement.declared :=
  List.mem_flatMap.mpr ⟨_, mem, List.mem_singleton_self v⟩

section Blocks

open Specification (IsNormal)

variable {a : ModelArguments} {s : Specification} {columns : List (DesignColumn Float s.data.rows)}
  {values : List (Variable × Datum)}

/-- Declarations are fitted if whatever their variables ask for fits. -/
theorem FitsAll.of_provides (provided : AreProvided s columns (Program.dataBlock s) values)
    {block : List Statement} (part : block ⊆ Program.dataBlock s)
    (each : ∀ {type v value note}, Statement.declare type v value note ∈ block →
      ∀ datum, Provides s columns v datum → type.Fits (ofValues values) datum) :
    FitsAll (ofValues values) block := by
  intro type v value note mem
  obtain ⟨datum, found, provides⟩ := provided.exists_datum (declared_of_mem (part mem))
  exact ⟨datum, found, each mem datum provides⟩

/-- The integer under a declared variable, if its value can only be that one. -/
theorem whole?_eq (provided : AreProvided s columns (Program.dataBlock s) values) {v : Variable}
    {n : Nat} (declared : v ∈ (Program.dataBlock s).flatMap Statement.declared)
    (only : ∀ datum, Provides s columns v datum → datum = .ofNat n) :
    (ofValues values).whole? v = some (n : Int) := by
  obtain ⟨datum, found, provides⟩ := provided.exists_datum declared
  rw [whole?, found, only datum provides]
  rfl

/-- The number of observations is that of the rows. -/
theorem whole?_observations (provided : AreProvided s columns (Program.dataBlock s) values) :
    (ofValues values).whole? .observations = some (s.data.rows : Int) := by
  have declared : Variable.observations ∈ (Program.dataBlock s).flatMap Statement.declared := by
    simp [Program.dataBlock, Statement.declared]
  exact whole?_eq provided declared fun _ provides => provides

/-- The number of coefficients is that of the shared ones. -/
theorem whole?_coefficients (provided : AreProvided s columns (Program.dataBlock s) values) :
    (ofValues values).whole? .coefficients = some (columns.length : Int) := by
  have declared : Variable.coefficients ∈ (Program.dataBlock s).flatMap Statement.declared := by
    simp [Program.dataBlock, Program.designData, Statement.declared]
  exact whole?_eq provided declared fun _ provides => provides

/-- The response and the number of trials fit. -/
theorem fits_responseData (provided : AreProvided s columns (Program.dataBlock s) values) :
    FitsAll (ofValues values) (Program.responseData s) := by
  have rows := whole?_observations provided
  have integers (cells : Vector Int s.data.rows) : VariableType.Fits (ofValues values)
      (.ints Variable.observations {}) (.ints cells.toList) :=
    ⟨by simp [Expr.size?, rows], fun n _ => Bounds.admits_of_none n⟩
  have numbers (cells : Vector Float s.data.rows) : VariableType.Fits (ofValues values)
      (.vector {} Variable.observations) (.reals cells.toList) :=
    ⟨by simp [Expr.size?, rows], fun x _ => Bounds.admits_of_none _⟩
  refine .of_provides provided (fun _ mem => by simp [Program.dataBlock, mem]) ?_
  intro type v value note mem datum provides
  rcases List.mem_cons.mp mem with response | trials
  · by_cases real : s.family.distribution.responseKind = .real
    · rw [if_pos real] at response
      cases response
      simp only [Provides, real, ↓reduceIte] at provides
      obtain ⟨cells, rfl⟩ := provides
      exact numbers cells
    · rw [if_neg real] at response
      cases response
      simp only [Provides, real, ↓reduceIte] at provides
      obtain ⟨cells, rfl⟩ := provides
      exact integers cells
  · split at trials
    · cases List.mem_singleton.mp trials
      obtain ⟨cells, rfl⟩ := provides
      exact integers cells
    · cases trials

/-- The design fits. -/
theorem fits_designData (provided : AreProvided s columns (Program.dataBlock s) values) :
    FitsAll (ofValues values) (Program.designData s) := by
  have rows := whole?_observations provided
  have part : Program.designData s ⊆ Program.dataBlock s := fun _ mem => by
    simp [Program.dataBlock, mem]
  have width := whole?_coefficients provided
  refine .of_provides provided part ?_
  intro type v value note mem datum provides
  rcases List.mem_cons.mp mem with coefficients | mem
  · cases coefficients
    obtain rfl : datum = .ofNat columns.length := provides
    exact VariableType.fits_ofNat _ Text.integer?_zero (Nat.zero_le _)
  split at mem
  · rename_i packed
    have count : (ofValues values).whole? .nonzeroCount =
        some ((sparse (rowsOf columns)).entries.length : Int) := by
      have declared : Statement.declare (.int (Program.atLeast "0")) .nonzeroCount none
          "number of non-zero elements of X" ∈ Program.designData s := by
        simp [Program.designData, packed]
      exact whole?_eq provided (declared_of_mem (part declared)) fun _ provides => provides
    simp only [List.mem_cons, List.not_mem_nil, or_false] at mem
    rcases mem with same | same | same | same <;> cases same
    · obtain rfl : datum = .ofNat _ := provides
      exact VariableType.fits_ofNat _ Text.integer?_zero (Nat.zero_le _)
    · obtain rfl : datum = .reals _ := provides
      exact ⟨by simp [Expr.size?, count], fun x _ => Bounds.admits_of_none _⟩
    · obtain rfl : datum = .ints _ := provides
      refine ⟨?_, fun n _ => Bounds.admits_of_none n⟩
      simp [Expr.size?, count, length_sparse_columns]
    · obtain rfl : datum = .ints _ := provides
      refine ⟨?_, fun n _ => Bounds.admits_of_none n⟩
      have literal : Text.natural? "1" = some 1 := by decide
      have starts : (sparse (rowsOf columns)).starts.length = s.data.rows + 1 := by
        simp [sparse, length_startsFrom, rowsOf]
      rw [List.length_map, starts]
      show Expr.size? _ (.binary .plus _ _) = _
      simp [Expr.size?, rows, literal]
  · cases List.mem_singleton.mp mem
    obtain rfl : datum = .matrix (rowsOf columns) := provides
    refine ⟨by simp [Expr.size?, rows, rowsOf], columns.length, by simp [Expr.size?, width], ?_⟩
    intro row inside
    obtain ⟨_, _, rfl⟩ := List.mem_map.mp inside
    simp

/-- The declarations of a group are among those of the data block. -/
theorem groupData_subset {group : Group} (mem : group ∈ s.terms.groups) :
    Program.groupData group ⊆ Program.dataBlock s := fun statement inside => by
  have listed := List.mem_flatMap.mpr ⟨group, mem, inside⟩
  simp only [Program.dataBlock, List.mem_append]
  tauto

/-- The number of levels of a group is that of its factor. -/
theorem whole?_levelCount (normal : IsNormal a s)
    (provided : AreProvided s columns (Program.dataBlock s) values) {group : Group}
    (mem : group ∈ s.terms.groups) :
    (ofValues values).whole? (.levelCount group.id) = some (group.levels.length : Int) := by
  have declared : Statement.declare (.int (Program.atLeast "1")) (.levelCount group.id) none
      "number of grouping levels" ∈ Program.groupData group := by
    simp [Program.groupData]
  refine whole?_eq provided (declared_of_mem (groupData_subset mem declared)) fun _ provides => ?_
  obtain ⟨other, there, number, rfl⟩ := provides
  rw [normal.group_eq there mem number]

/-- The data of a group fit. -/
theorem fits_groupData (normal : IsNormal a s)
    (provided : AreProvided s columns (Program.dataBlock s) values) {group : Group}
    (mem : group ∈ s.terms.groups) : FitsAll (ofValues values) (Program.groupData group) := by
  have rows := whole?_observations provided
  have part := groupData_subset mem
  have levels := whole?_levelCount normal provided mem
  refine .of_provides provided part ?_
  intro type v value note inside datum provides
  simp only [Program.groupData, List.mem_append, List.mem_cons, List.not_mem_nil, or_false,
    reduceCtorEq, false_or, List.mem_map] at inside
  rcases inside with ((same | same | same) | ⟨k, _, same⟩) | covariance
  · cases same
    obtain ⟨other, there, number, rfl⟩ := provides
    exact VariableType.fits_ofNat _ Text.integer?_one (normal.levels_pos there)
  · cases same
    obtain ⟨other, there, number, rfl⟩ := provides
    exact VariableType.fits_ofNat _ Text.integer?_one (normal.size_pos there)
  · cases same
    obtain ⟨other, there, _, index, placed, rfl⟩ := provides
    obtain ⟨places, made, _⟩ := normal.exists_groupIndex there
    obtain rfl := Except.ok.inj (placed.symm.trans made)
    refine ⟨by simp [Expr.size?, rows], fun n here => ?_⟩
    simp only [List.map_map, List.mem_map, Function.comp_apply] at here
    obtain ⟨level, _, rfl⟩ := here
    refine Bounds.admits_atLeast Text.integer?_one ?_
    show (1 : Int) ≤ ((level.val + 1 : Nat) : Int)
    omega
  · cases same
    obtain ⟨_, _, _, _, _, _, column, _, _, rfl⟩ := provides
    exact ⟨by simp [Expr.size?, rows], fun x _ => Bounds.admits_of_none _⟩
  · split at covariance
    · cases List.mem_singleton.mp covariance
      obtain ⟨other, there, number, m, cells, _, size, factor, rfl⟩ := provides
      obtain rfl := normal.group_eq there mem number
      obtain ⟨height, width⟩ := Covariance.cholesky_shape factor
      refine ⟨by simp [Expr.size?, levels, height, size], other.levels.length,
        by simp [Expr.size?, levels], fun row here => ?_⟩
      rw [width row here, size]
    · cases covariance

/-- The data of the residuals fit. -/
theorem fits_lagData (provided : AreProvided s columns (Program.dataBlock s) values) :
    FitsAll (ofValues values) (Program.lagData s) := by
  have rows := whole?_observations provided
  refine .of_provides provided (fun _ mem => by simp [Program.dataBlock, mem]) ?_
  intro type v value note mem datum provides
  unfold Program.lagData at mem
  split at mem
  · simp only [List.mem_cons, List.not_mem_nil, or_false] at mem
    rcases mem with same | same <;> cases same
    · obtain ⟨a, _, rfl⟩ := provides
      have positive := a.positive
      exact Bounds.admits_atLeast Text.integer?_zero (by simpa using by omega)
    · obtain ⟨a, lags, _, made, rfl⟩ := provides
      refine ⟨by simp [Expr.size?, rows, Autocorrelation.length_lags made], fun n inside => ?_⟩
      obtain ⟨count, _, rfl⟩ := List.mem_map.mp inside
      exact Bounds.admits_atLeast Text.integer?_zero (by simp)
  · cases mem

/-- Of all knots under one suffix, the last ones are found, with their number. -/
theorem exists_lookup_knots {knots : List (String × List Float)}
    (each : ∀ entry ∈ knots, entry.2 ≠ []) {suffix : String}
    (listed : ∃ entry ∈ knots, nameSuffix entry.1 = suffix) :
    ∃ found : List Float, found ≠ [] ∧
      (knots.flatMap fun (name, values) => knotData name values).reverse.lookup
        (.knotCount suffix) = some (.ofNat found.length) ∧
      (knots.flatMap fun (name, values) => knotData name values).reverse.lookup
        (.knots suffix) = some (.reals found) := by
  induction knots with
  | nil => simp at listed
  | cons first rest ih =>
    obtain ⟨name, values⟩ := first
    simp only [List.flatMap_cons, List.reverse_append, List.lookup_append]
    by_cases later : ∃ entry ∈ rest, nameSuffix entry.1 = suffix
    · obtain ⟨found, nonempty, count, own⟩ := ih (fun entry mem => each entry (by simp [mem])) later
      exact ⟨found, nonempty, by rw [count]; rfl, by rw [own]; rfl⟩
    · -- No later knots have the suffix, so these ones are found.
      have here : nameSuffix name = suffix := by
        obtain ⟨entry, mem, same⟩ := listed
        rcases List.mem_cons.mp mem with rfl | there
        · exact same
        · exact absurd ⟨entry, there, same⟩ later
      have none (v : Variable) (own : v = .knotCount suffix ∨ v = .knots suffix) :
          (rest.flatMap fun (name, values) => knotData name values).reverse.lookup v = none := by
        rw [List.lookup_eq_none_iff]
        intro entry mem
        rw [List.mem_reverse, List.mem_flatMap] at mem
        obtain ⟨⟨other, knots⟩, there, inside⟩ := mem
        have differs : suffix ≠ nameSuffix other := fun same => later ⟨_, there, same.symm⟩
        simp only [knotData, List.mem_cons, List.not_mem_nil, or_false] at inside
        rcases own with rfl | rfl <;> rcases inside with rfl | rfl <;> simp [differs]
      rw [none _ (.inl rfl), none _ (.inr rfl)]
      have unlike : (Variable.knotCount suffix == Variable.knots suffix) = false := by simp
      refine ⟨values, each (name, values) (by simp), ?_, ?_⟩ <;>
        simp [knotData, here, List.lookup_cons, unlike]

/-- The knots fit. -/
theorem fits_knotData (normal : IsNormal a s)
    {before : List (Variable × Datum)} {flag : Datum}
    (same : values = before ++ (s.knots.flatMap fun (name, values) => knotData name values) ++
      [(.priorOnly, flag)]) {name : String} {knots : List Float} (mem : (name, knots) ∈ s.knots) :
    FitsAll (ofValues values) (Program.knotData name) := by
  obtain ⟨found, nonempty, count, own⟩ := exists_lookup_knots normal.knots ⟨_, mem, rfl⟩
  -- Nothing that comes before the knots or after them is found under their names.
  have reaches (v : Variable) (datum : Datum) (other : v ≠ .priorOnly)
      (here : (s.knots.flatMap fun (name, values) => knotData name values).reverse.lookup v =
        some datum) : (ofValues values).lookup v.name = some datum := by
    have unlike : (v == .priorOnly) = false := by simpa using other
    rw [lookup_ofValues, same, List.reverse_append, List.reverse_append]
    simp [List.lookup_cons, unlike, List.lookup_append, here]
  have size : (ofValues values).whole? (.knotCount (nameSuffix name)) = some (found.length : Int) := by
    rw [whole?, reaches _ _ (by simp) count]
    rfl
  intro type v value note inside
  simp only [Program.knotData, List.mem_cons, List.not_mem_nil, or_false] at inside
  rcases inside with same | same <;> cases same
  · refine ⟨_, reaches _ _ (by simp) count, ?_⟩
    exact VariableType.fits_ofNat _ Text.integer?_one (List.length_pos_iff.mpr nonempty)
  · refine ⟨_, reaches _ _ (by simp) own, ?_⟩
    exact ⟨by simp [Expr.size?, size], fun x _ => Bounds.admits_of_none _⟩

/-- Every value fits its declaration. -/
theorem fitsAll_dataBlock (normal : IsNormal a s)
    (provided : AreProvided s columns (Program.dataBlock s) values)
    {before : List (Variable × Datum)} {flag : Datum}
    (same : values = before ++ (s.knots.flatMap fun (name, values) => knotData name values) ++
      [(.priorOnly, flag)]) : FitsAll (ofValues values) (Program.dataBlock s) := by
  have rows : FitsAll (ofValues values)
      [.declare (.int (Program.atLeast "1")) .observations none "number of observations"] := by
    refine .of_provides provided (fun _ mem => by simp_all [Program.dataBlock]) ?_
    intro type v value note mem datum provides
    cases List.mem_singleton.mp mem
    obtain rfl : datum = .ofNat s.data.rows := provides
    exact VariableType.fits_ofNat _ Text.integer?_one normal.rows_pos
  have only : FitsAll (ofValues values)
      [.declare (.int {}) .priorOnly none "should the likelihood be ignored?"] := by
    refine .of_provides provided (fun _ mem => by simp_all [Program.dataBlock]) ?_
    intro type v value note mem datum provides
    cases List.mem_singleton.mp mem
    obtain rfl : datum = .ofNat _ := provides
    exact Bounds.admits_of_none _
  exact (((((rows.append (fits_responseData provided)).append
    (fits_designData provided)).append
    (.flatMap fun group mem => fits_groupData normal provided mem)).append
    (fits_lagData provided)).append
    (.flatMap fun entry mem => fits_knotData normal same mem)).append only

/-- The names of the data are those of the declared variables, in the order of first declaration. -/
theorem names_ofValues {statements : List Statement}
    (provided : AreProvided s columns statements values) :
    (ofValues values).map Prod.fst =
      ((statements.flatMap Statement.declared).map Variable.name).eraseDups := by
  rw [ofValues, Entries.keys_putAll, ← provided.1, List.map_map, List.map_map]
  rfl

/-- The number of levels and the places of a group, as the data hold them. -/
theorem exists_places (normal : IsNormal a s)
    (provided : AreProvided s columns (Program.dataBlock s) values) {group : Group}
    (mem : group ∈ s.terms.groups) : ∃ places : List Int,
      (ofValues values).lookup (Variable.levelCount group.id).name =
        some (.ofNat group.levels.length) ∧
      (ofValues values).lookup (Variable.levelIndex group.id).name = some (.ints places) ∧
      ∀ place ∈ places, 1 ≤ place ∧ place ≤ group.levels.length := by
  have declared {type : VariableType} {v : Variable} {note : String}
      (own : .declare type v none note ∈ Program.groupData group) :=
    provided.exists_datum (declared_of_mem (groupData_subset mem own))
  have levels : Statement.declare (.int (Program.atLeast "1")) (.levelCount group.id) none
      "number of grouping levels" ∈ Program.groupData group := by
    simp [Program.groupData]
  have index : Statement.declare (.ints Variable.observations (Program.atLeast "1"))
      (.levelIndex group.id) none "grouping indicator per observation" ∈
        Program.groupData group := by
    simp [Program.groupData]
  obtain ⟨_, count, other, there, number, rfl⟩ := declared levels
  obtain rfl := normal.group_eq there mem number
  obtain ⟨_, indexed, third, here, again, index, placed, rfl⟩ := declared index
  obtain rfl := normal.group_eq here there again
  obtain ⟨places, made, _⟩ := normal.exists_groupIndex there
  obtain rfl := Except.ok.inj (placed.symm.trans made)
  refine ⟨_, count, indexed, fun place inside => ?_⟩
  simp only [List.map_map, List.mem_map, Function.comp_apply] at inside
  obtain ⟨level, _, rfl⟩ := inside
  have below := level.isLt
  show (1 : Int) ≤ ((level.val + 1 : Nat) : Int) ∧ ((level.val + 1 : Nat) : Int) ≤ _
  omega

end Blocks

/-- Data agree with the data block of a specification. -/
structure Agree (s : Specification) (data : BuildData) : Prop where
  /-- The names are those of the declared variables, in the order of first declaration. -/
  names : data.map Prod.fst =
    (((Program.dataBlock s).flatMap Statement.declared).map Variable.name).eraseDups
  /-- Every value fits its declaration. -/
  fits : FitsAll data (Program.dataBlock s)
  /-- The places of a group's observations are among its levels. -/
  places : ∀ group ∈ s.terms.groups, ∃ (count : Nat) (places : List Int),
    data.lookup (Variable.levelCount group.id).name = some (.ofNat count) ∧
      data.lookup (Variable.levelIndex group.id).name = some (.ints places) ∧
      ∀ place ∈ places, 1 ≤ place ∧ place ≤ count

/-- The data of every normalized specification are generated and agree with its data block; without
values of the user they are all data of its program. -/
theorem generated_agree {a : ModelArguments} {s : Specification}
    (normal : (Specification.normalize a).outcome = .ok s) :
    ∃ values, generated s = .ok values ∧ Agree s (ofValues values) ∧
      (s.fragments.data = [] → ofSpecification s = .ok (ofValues values)) := by
  have normal := Specification.normalize_spec normal
  obtain ⟨columns, design⟩ := normal.design
  obtain ⟨values, before, made, provided, same⟩ := generated_spec normal design
  refine ⟨values, made, ⟨names_ofValues provided, fitsAll_dataBlock normal provided same, ?_⟩, ?_⟩
  · intro group mem
    exact ⟨_, exists_places normal provided mem⟩
  · intro none
    rw [ofSpecification, made, none]
    rfl

/-- The data of the small model agree with its data block. -/
theorem sample_agree : ∃ s, (Specification.normalize Specification.sample).outcome = .ok s ∧
    ∃ values, generated s = .ok values ∧ Agree s (ofValues values) := by
  obtain ⟨s, normal⟩ := Specification.exists_normalize_sample
  obtain ⟨values, made, agree, _⟩ := generated_agree normal
  exact ⟨s, normal, values, made, agree⟩

end BuildData

end Multilevel
