import Multilevel.Model.Cleaning
import Multilevel.Proofs.Data.Cells

/-!
# What cleaning guarantees

The table that a model sees has the columns that the model needs and rows of the given table, each
complete. Apart from the response and the number of trials, which are stored as the family asks,
every cell keeps its level; columns that group observations or hold no numbers are factors with
distinct levels, each of which occurs (`Cleaning.update_spec`).
-/
namespace Multilevel

namespace Frame

/-- A column is found exactly if there is one of its name. -/
theorem column_eq_ok {frame : Frame} {name : String} {column : Column frame.rows} :
    frame.column name = .ok column ↔ frame.column? name = some column := by
  unfold Frame.column
  cases frame.column? name <;> simp

/-- The column of a name after choosing rows. -/
theorem column?_pick (frame : Frame) (chosen : List (Fin frame.rows)) (name : String) :
    (frame.pick chosen).column? name =
      (frame.column? name).map fun column => column.pick chosen := by
  simp only [Frame.column?, Frame.pick]
  induction frame.columns with
  | nil => rfl
  | cons first rest ih =>
    obtain ⟨other, column⟩ := first
    rw [List.map_cons, List.lookup_cons, List.lookup_cons]
    cases name == other
    · exact ih
    · rfl

/-- A column after choosing rows is one of before with its cells chosen. -/
theorem of_column?_pick (frame : Frame) {chosen : List (Fin frame.rows)} {name : String}
    {column : Column chosen.length} (found : (frame.pick chosen).column? name = some column) :
    ∃ given, frame.column? name = some given ∧ column = given.pick chosen := by
  have moved := (frame.column?_pick chosen name).symm.trans found
  obtain ⟨given, here, made⟩ := Option.map_eq_some_iff.mp moved
  exact ⟨given, here, made.symm⟩

/-- The names after choosing rows. -/
theorem names_pick (frame : Frame) (chosen : List (Fin frame.rows)) :
    (frame.pick chosen).names = frame.names := by
  simp [Frame.names, Frame.pick, Function.comp_def]

/-- The chosen columns of a table stand under the chosen names. -/
theorem select_eq_ok {frame chosen : Frame} {names : List String}
    (selected : frame.select names = .ok chosen) :
    ∃ columns : List (String × Column frame.rows), chosen = ⟨frame.rows, columns⟩ ∧
      columns.map Prod.fst = names ∧
      ∀ name column, columns.lookup name = some column → frame.column? name = some column := by
  simp only [Frame.select, bind_eq_ok, pure_eq_ok, mapM_eq_ok] at selected
  obtain ⟨columns, entries, rfl⟩ := selected
  refine ⟨columns, rfl, ?_, ?_⟩
  · induction entries with
    | nil => rfl
    | cons first _ ih =>
      obtain ⟨column, _, rfl⟩ := first
      rw [List.map_cons, ih]
  · induction entries with
    | nil => simp
    | cons first _ ih =>
      obtain ⟨column, found, rfl⟩ := first
      intro name other here
      rw [List.lookup_cons] at here
      split at here
      · rename_i same
        rw [eq_of_beq same, ← Option.some.inj here]
        exact column_eq_ok.mp found
      · exact ih name other here

/-- Selected columns stand under the selected names and are found in the table. -/
theorem of_select {frame : Frame} {columns : List (String × Column frame.rows)} {names : List String}
    (selected : frame.select names = .ok ⟨frame.rows, columns⟩) : columns.map Prod.fst = names ∧
      ∀ name column, columns.lookup name = some column → frame.column? name = some column := by
  obtain ⟨others, same, spec⟩ := select_eq_ok selected
  obtain rfl : columns = others := by simpa using same
  exact spec

/-- Rows without missing cells have none in any column. -/
theorem isMissing_complete (frame : Frame) {name : String} {column : Column frame.rows}
    (found : frame.column? name = some column) {row : Fin frame.rows}
    (complete : row ∈ frame.completeRows) : column.isMissing row = false := by
  have all := (List.mem_filter.mp complete).2
  have mem : (name, column) ∈ frame.columns := by
    unfold Frame.column? at found
    rw [List.lookup_eq_some_iff] at found
    obtain ⟨before, after, split, _⟩ := found
    simp [split]
  simpa using List.all_eq_true.mp all _ mem

/-- Putting rows in order chooses each row once. -/
theorem sortBy_eq_ok {frame sorted : Frame} {names : List String}
    (done : frame.sortBy names = .ok sorted) :
    ∃ chosen : List (Fin frame.rows), chosen.Perm (List.finRange frame.rows) ∧
      sorted = frame.pick chosen := by
  simp only [Frame.sortBy, bind_eq_ok] at done
  obtain ⟨columns, _, done⟩ := done
  refine ⟨frame.orderedRows columns, List.mergeSort_perm _ _, ?_⟩
  split at done <;> simp only [throw_bind, ite_throw_eq_ok, pure_eq_ok] at done <;>
    exact done.2.symm

/-- Whether every column of a table is as a model takes it. -/
def IsTaken (frame : Frame) : Prop :=
  ∀ name column, frame.column? name = some column → column.IsTaken

end Frame

namespace Cleaning

/-- Whether cleaning stores a column as the family asks. -/
def IsOutcome (formula : Formula) (name : String) : Prop :=
  name = formula.response ∨ some name = formula.trials

/-- How a model takes a column: the outcome and plain numbers as they are, whatever groups
observations or holds no numbers as a factor. -/
inductive Taken {rows : Nat} (formula : Formula) (grouping : List String) (name : String) :
    Column rows → Column rows → Prop where
  | outcome {column} (outcome : IsOutcome formula name) : Taken formula grouping name column column
  | factor {column factor} (other : ¬IsOutcome formula name)
    (made : column.asFactor = .ok factor) : Taken formula grouping name column factor
  | number {column} (other : ¬IsOutcome formula name) (free : name ∉ grouping)
    (numeric : column.isNumeric) : Taken formula grouping name column column

/-- Every converted column is one that was given, under its own name: the outcome as it is, what
groups observations or holds no numbers as a factor, and plain numbers as they are. -/
theorem convertColumns_cases {rows : Nat} {formula : Formula} {grouping : List String}
    {columns made : List (String × Column rows)}
    (converted : convertColumns formula grouping columns = .ok made) :
    List.Forall₂ (fun given result => result.1 = given.1 ∧
      (IsOutcome formula given.1 ∧ result.2 = given.2 ∨
        ¬IsOutcome formula given.1 ∧ (given.1 ∈ grouping ∨ given.2.isNumeric = false) ∧
          given.2.asFactor = .ok result.2 ∨
        ¬IsOutcome formula given.1 ∧ (given.1 ∉ grouping ∧ given.2.isNumeric = true) ∧
          result.2 = given.2)) columns made := by
  unfold convertColumns at converted
  rw [mapM_eq_ok] at converted
  refine converted.imp fun ⟨name, column⟩ result step => ?_
  simp only [Bool.or_eq_true, decide_eq_true_eq, Column.isCategorical, List.contains_iff_mem,
    Bool.not_eq_true'] at step
  split at step
  · rename_i outcome
    obtain rfl := Except.ok.inj step
    exact ⟨rfl, .inl ⟨outcome, rfl⟩⟩
  · rename_i other
    split at step
    · rename_i taken
      obtain ⟨factor, made, step⟩ := bind_eq_ok.mp step
      obtain rfl := Except.ok.inj step
      exact ⟨rfl, .inr (.inl ⟨other, taken, made⟩)⟩
    · rename_i plain
      obtain rfl := Except.ok.inj step
      rw [not_or, Bool.not_eq_false] at plain
      exact ⟨rfl, .inr (.inr ⟨other, plain, rfl⟩)⟩

/-- Every converted column is taken as a model takes it. -/
theorem convertColumns_eq_ok {rows : Nat} {formula : Formula} {grouping : List String}
    {columns made : List (String × Column rows)}
    (converted : convertColumns formula grouping columns = .ok made) :
    List.Forall₂ (fun given result => result.1 = given.1 ∧
      Taken formula grouping given.1 given.2 result.2) columns made := by
  refine (convertColumns_cases converted).imp fun given result ⟨named, step⟩ => ⟨named, ?_⟩
  rcases step with ⟨outcome, same⟩ | ⟨other, _, made⟩ | ⟨other, plain, same⟩
  · rw [same]
    exact .outcome outcome
  · exact .factor other made
  · rw [same]
    exact .number other plain.1 plain.2

/-- What the check of the response leaves: the outcome stored as the family asks, everything else as
it was. -/
structure Checked (formula : Formula) (family : Family) {rows : Nat}
    (given checked : List (String × Column rows)) : Prop where
  /-- The columns keep their names. -/
  names : checked.map Prod.fst = given.map Prod.fst
  /-- Columns other than the outcome keep their cells. -/
  other : ∀ name, ¬IsOutcome formula name → checked.lookup name = given.lookup name
  /-- A column that does not keep its cells holds integers. -/
  changed : ∀ name column, checked.lookup name = some column →
    given.lookup name = some column ∨ column.IsInt
  /-- The response holds numbers, integers unless the family takes all numbers. -/
  response : ∃ column, checked.lookup formula.response = some column ∧ column.isNumeric ∧
    (family.distribution.responseKind ≠ .real → column.IsInt)
  /-- The number of trials, where the family asks for it, holds integers. -/
  trials : family.distribution.responseKind = .trials → ∃ name column,
    formula.trials = some name ∧ checked.lookup name = some column ∧ column.IsInt

/-- Storing one column as integers leaves the others as they were. -/
theorem lookup_adjust_asWords {rows : Nat} {columns : List (String × Column rows)}
    {changed : String} {numbers : Vector Float rows} {name : String} {column : Column rows}
    (found : (Entries.adjust columns changed fun _ => asWords numbers).lookup name = some column) :
    (name = changed ∧ column.IsInt) ∨ (name ≠ changed ∧ columns.lookup name = some column) := by
  rw [Entries.lookup_adjust, Option.map_eq_some_iff] at found
  obtain ⟨source, here, rfl⟩ := found
  by_cases same : name = changed
  · exact .inl ⟨same, by simp [same, asWords, Column.IsInt]⟩
  · exact .inr ⟨same, by simpa [same] using here⟩

/-- Storing the response as integers is storing it as a family of counts or of truth values asks. -/
theorem Checked.of_asWords {formula : Formula} {family : Family} {rows : Nat}
    {given columns : List (String × Column rows)} {numbers : Vector Float rows}
    (names : columns.map Prod.fst = given.map Prod.fst)
    (kept : ∀ name, name ≠ formula.response → columns.lookup name = given.lookup name)
    (present : ∃ column, columns.lookup formula.response = some column)
    (untried : family.distribution.responseKind ≠ .trials) :
    Checked formula family given
      (Entries.adjust columns formula.response fun _ => asWords numbers) where
  names := (Entries.keys_adjust _ _ _).trans names
  other name outcome := by
    have differs : name ≠ formula.response := fun same => outcome (.inl same)
    rw [Entries.lookup_adjust, kept name differs]
    simp [differs]
  changed name column found := by
    rcases lookup_adjust_asWords found with ⟨_, integers⟩ | ⟨differs, here⟩
    · exact .inr integers
    · exact .inl (kept name differs ▸ here)
  response := by
    obtain ⟨column, here⟩ := present
    refine ⟨asWords numbers, ?_, rfl, fun _ => trivial⟩
    rw [Entries.lookup_adjust, here]
    simp
  trials kind := absurd kind untried

/-- Storing the response and the number of trials as integers is storing them as a family of trials
asks. -/
theorem Checked.of_asWords_trials {formula : Formula} {family : Family} {rows : Nat}
    {given columns : List (String × Column rows)} {numbers counts : Vector Float rows}
    {trials : String} (tried : formula.trials = some trials)
    (names : columns.map Prod.fst = given.map Prod.fst)
    (kept : ∀ name, name ≠ formula.response → columns.lookup name = given.lookup name)
    (present : ∃ column, columns.lookup formula.response = some column)
    (counted : ∃ column, columns.lookup trials = some column) :
    Checked formula family given
      (Entries.adjust (Entries.adjust columns formula.response fun _ => asWords numbers) trials
        fun _ => asWords counts) where
  names := by rw [Entries.keys_adjust, Entries.keys_adjust, names]
  other name outcome := by
    have differs : name ≠ formula.response := fun same => outcome (.inl same)
    have untried : name ≠ trials := fun same => outcome (.inr (same ▸ tried.symm))
    rw [Entries.lookup_adjust, Entries.lookup_adjust, kept name differs]
    simp [differs, untried]
  changed name column found := by
    rcases lookup_adjust_asWords found with ⟨_, integers⟩ | ⟨_, found⟩
    · exact .inr integers
    rcases lookup_adjust_asWords found with ⟨_, integers⟩ | ⟨differs, here⟩
    · exact .inr integers
    · exact .inl (kept name differs ▸ here)
  response := by
    obtain ⟨column, here⟩ := present
    by_cases same : formula.response = trials
    · refine ⟨asWords counts, ?_, rfl, fun _ => trivial⟩
      rw [Entries.lookup_adjust, Entries.lookup_adjust, here]
      simp [same]
    · refine ⟨asWords numbers, ?_, rfl, fun _ => trivial⟩
      rw [Entries.lookup_adjust, Entries.lookup_adjust, here]
      simp [same]
  trials _ := by
    obtain ⟨column, here⟩ := counted
    refine ⟨trials, asWords counts, tried, ?_, trivial⟩
    rw [Entries.lookup_adjust, Entries.lookup_adjust, here]
    simp

/-- A response as it is read: truth values are zeros and ones, where the family takes them. -/
def readAs {rows : Nat} (kind : ResponseKind) (column : Column rows) : Column rows :=
  if kind = .binary then truthsAsIntegers column else column

/-- The columns as the check of a response reads them. -/
def readColumns (formula : Formula) (family : Family) {rows : Nat}
    (columns : List (String × Column rows)) : List (String × Column rows) :=
  Entries.adjust columns formula.response (readAs family.distribution.responseKind)

section Reading

variable {formula : Formula} {family : Family} {rows : Nat} {columns : List (String × Column rows)}

/-- A family that does not take truth values reads a response as it is. -/
theorem readAs_of_ne {kind : ResponseKind} (other : kind ≠ .binary) (column : Column rows) :
    readAs kind column = column :=
  if_neg other

/-- A family that does not take truth values reads the columns as they are. -/
theorem readColumns_of_ne (other : family.distribution.responseKind ≠ .binary) :
    readColumns formula family columns = columns := by
  simp [readColumns, Entries.adjust, readAs_of_ne other]

/-- The check of a response first reads the columns. -/
theorem read_eq (frame : Frame) (formula : Formula) (family : Family) :
    (if family.distribution.responseKind = .binary then
      frame.adjust formula.response truthsAsIntegers else frame) =
      ⟨frame.rows, readColumns formula family frame.columns⟩ := by
  split
  · rename_i binary
    rw [readColumns, binary]
    rfl
  · rename_i other
    rw [readColumns_of_ne other]

/-- Reading the columns changes none of their names. -/
theorem keys_readColumns : (readColumns formula family columns).map Prod.fst =
    columns.map Prod.fst :=
  Entries.keys_adjust ..

/-- Columns other than the response are read as they are. -/
theorem lookup_readColumns_of_ne {name : String} (differs : name ≠ formula.response) :
    (readColumns formula family columns).lookup name = columns.lookup name := by
  rw [readColumns, Entries.lookup_adjust]
  simp [differs]

/-- The response is read as the family asks. -/
theorem lookup_readColumns_response : (readColumns formula family columns).lookup formula.response =
    (columns.lookup formula.response).map (readAs family.distribution.responseKind) := by
  rw [readColumns, Entries.lookup_adjust]
  simp

/-- How the numbers of a response pass the check of a family, and the columns that this leaves: counts,
truth values and trials are stored in words. -/
inductive Passed (formula : Formula) (family : Family) {rows : Nat}
    (read : List (String × Column rows)) (values : Vector Float rows) :
    List (String × Column rows) → Prop where
  | real (kind : family.distribution.responseKind = .real) : Passed formula family read values read
  | count (kind : family.distribution.responseKind = .count)
    (integers : values.toList.all Number.isInteger = true)
    (nonneg : values.toList.any (· < 0.0) = false) :
    Passed formula family read values
      (Entries.adjust read formula.response fun _ => asWords values)
  | binary (kind : family.distribution.responseKind = .binary)
    (integers : values.toList.all Number.isInteger = true)
    (truths : (values.toList.all fun x => x == 0.0 || x == 1.0) = true) :
    Passed formula family read values
      (Entries.adjust read formula.response fun _ => asWords values)
  | trials (kind : family.distribution.responseKind = .trials)
    (integers : values.toList.all Number.isInteger = true)
    {name : String} (tried : formula.trials = some name) {column : Column rows}
    (found : (Entries.adjust read formula.response fun _ => asWords values).lookup name = some column)
    {counts : Vector Float rows} (numbers : column.numbers = .ok counts)
    (suited : checkTrials name family.distribution.name values counts = .ok ()) :
    Passed formula family read values
      (Entries.adjust (Entries.adjust read formula.response fun _ => asWords values) name
        fun _ => asWords counts)

/-- A checked response stands for finite numbers, which pass the check of the family. -/
theorem exists_passed {frame checked : Frame}
    (passed : checkResponse frame formula family = .ok checked) :
    ∃ response values,
      (readColumns formula family frame.columns).lookup formula.response = some response ∧
      response.isNumeric = true ∧ response.numbers = .ok values ∧
      ∃ made, checked = ⟨frame.rows, made⟩ ∧
        Passed formula family (readColumns formula family frame.columns) values made := by
  unfold checkResponse at passed
  dsimp only at passed
  rw [read_eq] at passed
  simp only [↓refuse_bind, ite_refuse_eq_ok, bind_eq_ok, mapError_eq_ok,
    liftM_eq_mapError, Frame.column_eq_ok, Bool.not_eq_true, Bool.not_eq_false'] at passed
  obtain ⟨response, found, numeric, values, numbers, _, passed⟩ := passed
  refine ⟨response, values, found, numeric, numbers, ?_⟩
  cases kind : family.distribution.responseKind with
  | real =>
    simp only [kind, ↓reduceIte, pure_eq_ok] at passed
    exact ⟨_, passed.symm, .real kind⟩
  | count =>
    simp only [kind, reduceCtorEq, ↓reduceIte, ite_refuse_eq_ok, pure_eq_ok, Bool.not_eq_true,
      Bool.not_eq_false'] at passed
    exact ⟨_, passed.2.2.symm, .count kind passed.1 passed.2.1⟩
  | binary =>
    simp only [kind, reduceCtorEq, ↓reduceIte, ite_refuse_eq_ok, pure_eq_ok, Bool.not_eq_true,
      Bool.not_eq_false'] at passed
    exact ⟨_, passed.2.2.symm, .binary kind passed.1 passed.2.1⟩
  | trials =>
    simp only [kind, reduceCtorEq, ↓reduceIte, ite_refuse_eq_ok, Bool.not_eq_true,
      Bool.not_eq_false'] at passed
    obtain ⟨integers, passed⟩ := passed
    cases tried : formula.trials with
    | none => simp [tried, refuse_ne_ok] at passed
    | some trials =>
      simp only [tried, bind_eq_ok, mapError_eq_ok, pure_eq_ok, Frame.column_eq_ok] at passed
      obtain ⟨column, here, counts, spelled, _, suited, same⟩ := passed
      exact ⟨_, same.symm, .trials kind integers tried here spelled suited⟩

end Reading

/-- The check of the response leaves the outcome as the family asks. -/
theorem checkResponse_eq_ok {frame checked : Frame} {formula : Formula} {family : Family}
    (passed : checkResponse frame formula family = .ok checked) :
    ∃ columns, checked = ⟨frame.rows, columns⟩ ∧
      Checked formula family frame.columns columns := by
  obtain ⟨response, values, found, numeric, _, made, rfl, own⟩ := exists_passed passed
  refine ⟨made, rfl, ?_⟩
  have kept (name : String) (differs : name ≠ formula.response) :
      (readColumns formula family frame.columns).lookup name = frame.columns.lookup name :=
    lookup_readColumns_of_ne differs
  cases own with
  | real kind =>
    rw [readColumns_of_ne (by simp [kind])] at found ⊢
    exact ⟨rfl, fun _ _ => rfl, fun _ _ => .inl,
      ⟨response, found, numeric, fun other => absurd kind other⟩, by simp [kind]⟩
  | count kind | binary kind =>
    exact .of_asWords keys_readColumns kept ⟨response, found⟩ (by simp [kind])
  | trials kind _ tried here =>
    refine .of_asWords_trials tried keys_readColumns kept ⟨response, found⟩ ?_
    have moved := Option.isSome_of_eq_some here
    rw [Entries.lookup_adjust, Option.isSome_map] at moved
    exact Option.isSome_iff_exists.mp moved

/-- What cleaning guarantees of the table that a model sees, given the row of the caller's table that
each of its rows comes from. -/
structure Cleaned (formula : Formula) (family : Family) (autocorrelation : Option Autocorrelation)
    (raw cleaned : Frame) (origin : Fin cleaned.rows → Fin raw.rows) : Prop where
  /-- There are rows. -/
  rows : 0 < cleaned.rows
  /-- No row comes twice. -/
  injective : Function.Injective origin
  /-- The columns are those that the model needs. -/
  names : cleaned.names = neededColumns formula autocorrelation
  /-- No cell is missing. -/
  complete : ∀ {name column}, cleaned.column? name = some column →
    ∀ row, column.isMissing row = false
  /-- Cells other than the outcome keep their levels. -/
  kept : ∀ {name column}, ¬IsOutcome formula name → cleaned.column? name = some column →
    ∃ given, raw.column? name = some given ∧
      ∀ row, column.level? row = given.level? (origin row)
  /-- A column other than the outcome is a factor unless it holds numbers. -/
  taken : ∀ {name column}, ¬IsOutcome formula name → cleaned.column? name = some column →
    column.isNumeric ∨ ∃ levels, column.IsSpanned levels
  /-- A column that groups observations is a factor. -/
  grouping : ∀ {name column}, ¬IsOutcome formula name →
    name ∈ groupingColumns formula autocorrelation → cleaned.column? name = some column →
    ∃ levels, column.IsSpanned levels
  /-- The response holds numbers, integers unless the family takes all numbers. -/
  response : ∃ column, cleaned.column? formula.response = some column ∧ column.isNumeric ∧
    (family.distribution.responseKind ≠ .real → column.IsInt)
  /-- The number of trials, where the family asks for it, holds integers. -/
  trials : family.distribution.responseKind = .trials → ∃ name column,
    formula.trials = some name ∧ cleaned.column? name = some column ∧ column.IsInt

/-- Putting the rows of a cleaned table into another order leaves it clean. -/
theorem Cleaned.pick {formula : Formula} {family : Family}
    {autocorrelation : Option Autocorrelation} {raw cleaned : Frame}
    {origin : Fin cleaned.rows → Fin raw.rows}
    (clean : Cleaned formula family autocorrelation raw cleaned origin)
    {chosen : List (Fin cleaned.rows)} (reordered : chosen.Perm (List.finRange cleaned.rows)) :
    Cleaned formula family autocorrelation raw (cleaned.pick chosen)
      fun row => origin (chosen.get row) := by
  -- Picking every row once keeps the cells of a factor, so its levels still occur.
  have spanned {given : Column cleaned.rows} {levels : List String}
      (factor : given.IsSpanned levels) : (given.pick chosen).IsSpanned levels := by
    refine ⟨(given.levels?_pick chosen).trans factor.levels?, factor.distinct, fun text mem => ?_⟩
    obtain ⟨row, here⟩ := factor.occurs text mem
    obtain ⟨place, inside, same⟩ :=
      List.getElem_of_mem (reordered.mem_iff.mpr (List.mem_finRange row))
    refine ⟨⟨place, inside⟩, ?_⟩
    rw [Column.level?_pick]
    exact same ▸ here
  refine ⟨?_, ?_, (cleaned.names_pick chosen).trans clean.names, ?_, ?_, ?_, ?_, ?_, ?_⟩
  · show 0 < chosen.length
    rw [reordered.length_eq, List.length_finRange]
    exact clean.rows
  · intro first second same
    have distinct : chosen.Nodup := reordered.nodup_iff.mpr (List.nodup_finRange _)
    exact Fin.ext (distinct.getElem_inj_iff.mp (clean.injective same))
  · intro name column found row
    obtain ⟨given, here, rfl⟩ := cleaned.of_column?_pick found
    exact (given.isMissing_pick chosen row).trans (clean.complete here _)
  · intro name column outcome found
    obtain ⟨given, here, rfl⟩ := cleaned.of_column?_pick found
    obtain ⟨first, taken, same⟩ := clean.kept outcome here
    exact ⟨first, taken, fun row => (given.level?_pick chosen row).trans (same _)⟩
  · intro name column outcome found
    obtain ⟨given, here, rfl⟩ := cleaned.of_column?_pick found
    rcases clean.taken outcome here with numeric | ⟨levels, factor⟩
    · exact .inl ((given.isNumeric_pick chosen).trans numeric)
    · exact .inr ⟨levels, spanned factor⟩
  · intro name column outcome mem found
    obtain ⟨given, here, rfl⟩ := cleaned.of_column?_pick found
    obtain ⟨levels, factor⟩ := clean.grouping outcome mem here
    exact ⟨levels, spanned factor⟩
  · obtain ⟨column, here, numeric, integers⟩ := clean.response
    refine ⟨column.pick chosen, ?_, (column.isNumeric_pick chosen).trans numeric,
      fun discrete => (integers discrete).pick chosen⟩
    rw [Frame.column?_pick, here]
    rfl
  · intro kind
    obtain ⟨name, column, tried, here, integers⟩ := clean.trials kind
    refine ⟨name, column.pick chosen, tried, ?_, integers.pick chosen⟩
    rw [Frame.column?_pick, here]
    rfl

/-- Complete rows of the needed columns, converted and checked, are a clean table. -/
theorem Cleaned.of_checked {formula : Formula} {family : Family}
    {autocorrelation : Option Autocorrelation} {raw : Frame}
    {columns : List (String × Column raw.rows)} {chosen : List (Fin raw.rows)}
    {converted checked : List (String × Column chosen.length)}
    (names : columns.map Prod.fst = neededColumns formula autocorrelation)
    (given : ∀ name column, columns.lookup name = some column → raw.column? name = some column)
    (complete : chosen = Frame.completeRows ⟨raw.rows, columns⟩) (nonempty : chosen.length ≠ 0)
    (converts : convertColumns formula (groupingColumns formula autocorrelation)
      (Frame.pick ⟨raw.rows, columns⟩ chosen).columns = .ok converted)
    (passed : Checked formula family converted checked) :
    Cleaned formula family autocorrelation raw ⟨chosen.length, checked⟩ chosen.get := by
  have steps := convertColumns_eq_ok converts
  have source {name : String} {column : Column chosen.length}
      (found : converted.lookup name = some column) : ∃ first : Column raw.rows,
        columns.lookup name = some first ∧
          Taken formula (groupingColumns formula autocorrelation) name (first.pick chosen)
            column := by
    obtain ⟨picked, here, taken⟩ := Entries.lookup_of_forall₂ (Taken formula _) steps found
    obtain ⟨first, there, rfl⟩ := Frame.of_column?_pick ⟨raw.rows, columns⟩ here
    exact ⟨first, there, taken⟩
  have full {name : String} {first : Column raw.rows} (found : columns.lookup name = some first)
      (row : Fin chosen.length) : (first.pick chosen).isMissing row = false := by
    rw [Column.isMissing_pick]
    exact Frame.isMissing_complete ⟨raw.rows, columns⟩ found
      (complete ▸ List.getElem_mem row.isLt)
  have other {name : String} {column : Column chosen.length} (outcome : ¬IsOutcome formula name)
      (found : checked.lookup name = some column) :=
    source ((passed.other name outcome).symm.trans found)
  refine ⟨Nat.pos_of_ne_zero nonempty, ?_, ?_, ?_, ?_, ?_, ?_, passed.response, passed.trials⟩
  · intro first second same
    have distinct : chosen.Nodup := complete ▸ (List.nodup_finRange _).filter _
    exact Fin.ext (distinct.getElem_inj_iff.mp same)
  · have kept := (Entries.keys_of_forall₂ (Taken formula _) steps).trans
      (Frame.names_pick ⟨raw.rows, columns⟩ chosen)
    exact (passed.names.trans kept).trans names
  · intro name column found row
    rcases passed.changed name column found with here | integers
    · obtain ⟨first, there, taken⟩ := source here
      cases taken with
      | outcome | number => exact full there row
      | factor _ made =>
        have cell := (Column.asFactor_spec made).1 row
        by_contra missing
        rw [Bool.not_eq_false, ← Column.level?_eq_none_iff, cell, Column.level?_eq_none_iff,
          full there row] at missing
        cases missing
    · exact integers.isMissing row
  · intro name column outcome found
    obtain ⟨first, there, taken⟩ := other outcome found
    refine ⟨first, given name first there, fun row => ?_⟩
    cases taken with
    | outcome same => exact absurd same outcome
    | number => exact first.level?_pick chosen row
    | factor _ made =>
      exact ((Column.asFactor_spec made).1 row).trans (first.level?_pick chosen row)
  · intro name column outcome found
    obtain ⟨first, there, taken⟩ := other outcome found
    cases taken with
    | outcome same => exact absurd same outcome
    | number _ _ numeric => exact .inl numeric
    | factor _ made => exact .inr (Column.asFactor_spec made).2
  · intro name column outcome mem found
    obtain ⟨first, there, taken⟩ := other outcome found
    cases taken with
    | outcome same => exact absurd same outcome
    | number _ free => exact absurd mem free
    | factor _ made => exact (Column.asFactor_spec made).2

/-- The table that a model sees is made of the complete rows of the needed columns: these are
converted, the response is checked, and the rows are put in order. -/
theorem update_eq_ok {raw cleaned : Frame} {formula : Formula} {family : Family}
    {autocorrelation : Option Autocorrelation} {knots : List String}
    (done : (update raw formula family autocorrelation knots).outcome = .ok cleaned) :
    ∃ (columns : List (String × Column raw.rows)) (chosen : List (Fin raw.rows))
      (converted : List (String × Column chosen.length)) (checked : Frame),
      raw.select (neededColumns formula autocorrelation) = .ok ⟨raw.rows, columns⟩ ∧
      chosen = Frame.completeRows ⟨raw.rows, columns⟩ ∧ chosen.length ≠ 0 ∧
      convertColumns formula (groupingColumns formula autocorrelation)
        (Frame.pick ⟨raw.rows, columns⟩ chosen).columns = .ok converted ∧
      checkResponse ⟨chosen.length, converted⟩ formula family = .ok checked ∧
      autocorrelation.elim (.ok checked) (fun a => a.orderRows checked) = .ok cleaned := by
  unfold update at done
  simp only [↓Reported.refuse_bind, ↓Reported.outcome_warn_bind, Reported.outcome_bind,
    Reported.outcome_liftM, Reported.outcome_ite, Reported.outcome_refuse, ite_self, bind_eq_ok,
    mapError_eq_ok, ite_refuse_eq_ok] at done
  obtain ⟨needed, selected, nonempty, converted, converts, checked, passed, done⟩ := done
  obtain ⟨columns, rfl, _⟩ := Frame.select_eq_ok selected
  refine ⟨columns, _, converted, checked, selected, rfl, nonempty, converts, passed, ?_⟩
  split at done
  · exact absurd done (by simp [Reported.outcome_refuse, refuse_ne_ok])
  · cases structured : autocorrelation with
    | none =>
      subst structured
      exact congrArg Except.ok (Except.ok.inj done)
    | some a =>
      subst structured
      simpa only [Reported.outcome_liftM, mapError_eq_ok, Option.elim_some] using done

/-- A table whose needed columns are complete is converted, checked and put in order. -/
theorem update_of_complete {raw needed cleaned checked : Frame} {formula : Formula}
    {family : Family} {autocorrelation : Option Autocorrelation}
    {converted : List (String × Column needed.rows)}
    (selected : raw.select (neededColumns formula autocorrelation) = .ok needed)
    (complete : needed.complete = needed) (nonempty : needed.rows ≠ 0)
    (converts : convertColumns formula (groupingColumns formula autocorrelation) needed.columns =
      .ok converted)
    (passed : checkResponse ⟨needed.rows, converted⟩ formula family = .ok checked)
    (ordered : autocorrelation.elim (.ok checked) (fun a => a.orderRows checked) = .ok cleaned) :
    (update raw formula family autocorrelation []).outcome = .ok cleaned := by
  unfold update
  simp only [Reported.outcome_bind, Reported.outcome_liftM, bind_eq_ok, mapError_eq_ok]
  refine ⟨needed, selected, ?_⟩
  rw [complete]
  simp only [lt_irrefl, if_false, if_neg nonempty, Reported.outcome_bind, Reported.outcome_liftM,
    bind_eq_ok, mapError_eq_ok, List.find?_nil]
  refine ⟨converted, converts, checked, passed, ?_⟩
  cases autocorrelation with
  | none => exact congrArg Except.ok (Except.ok.inj ordered)
  | some a => simpa only [Reported.outcome_liftM, mapError_eq_ok, Option.elim_some] using ordered

/-- The table that a model sees is a clean one. -/
theorem update_spec {raw cleaned : Frame} {formula : Formula} {family : Family}
    {autocorrelation : Option Autocorrelation} {knots : List String}
    (done : (update raw formula family autocorrelation knots).outcome = .ok cleaned) :
    ∃ origin, Cleaned formula family autocorrelation raw cleaned origin := by
  obtain ⟨columns, chosen, converted, checked, selected, complete, nonempty, converts, passed,
    done⟩ := update_eq_ok done
  obtain ⟨names, given⟩ := Frame.of_select selected
  obtain ⟨stored, rfl, suited⟩ := checkResponse_eq_ok passed
  have clean := Cleaned.of_checked names given complete nonempty converts suited
  cases autocorrelation with
  | none =>
    obtain rfl := Except.ok.inj done
    exact ⟨_, clean⟩
  | some a =>
    rw [Option.elim_some, Autocorrelation.orderRows] at done
    split at done
    · obtain rfl := Except.ok.inj done
      exact ⟨_, clean⟩
    · obtain ⟨order, reordered, rfl⟩ := Frame.sortBy_eq_ok done
      exact ⟨_, clean.pick reordered⟩

/-- The outcome of a cleaned table holds numbers, if trials are counted exactly if the family
does. -/
theorem Cleaned.isNumeric_outcome {formula : Formula} {family : Family}
    {autocorrelation : Option Autocorrelation} {raw cleaned : Frame}
    {origin : Fin cleaned.rows → Fin raw.rows}
    (clean : Cleaned formula family autocorrelation raw cleaned origin)
    (counted : formula.trials.isSome ↔ family.distribution.responseKind = .trials) {name : String}
    {column : Column cleaned.rows} (outcome : IsOutcome formula name)
    (found : cleaned.column? name = some column) : column.isNumeric = true := by
  rcases outcome with rfl | trials
  · obtain ⟨response, here, numeric, _⟩ := clean.response
    exact Option.some.inj (here.symm.trans found) ▸ numeric
  · obtain ⟨other, counts, same, here, integers⟩ :=
      clean.trials (counted.mp (Option.isSome_of_eq_some trials.symm))
    obtain rfl := Option.some.inj (trials.trans same)
    obtain rfl := Option.some.inj (found.symm.trans here)
    exact integers.isNumeric

/-- So every column of it is as a model takes it. -/
theorem Cleaned.isTaken {formula : Formula} {family : Family}
    {autocorrelation : Option Autocorrelation} {raw cleaned : Frame}
    {origin : Fin cleaned.rows → Fin raw.rows}
    (clean : Cleaned formula family autocorrelation raw cleaned origin)
    (counted : formula.trials.isSome ↔ family.distribution.responseKind = .trials) :
    cleaned.IsTaken := by
  intro name column found
  by_cases outcome : IsOutcome formula name
  · exact .inl (clean.isNumeric_outcome counted outcome found)
  · exact clean.taken outcome found

end Cleaning

end Multilevel
