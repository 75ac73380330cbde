import Multilevel.Proofs.Number.Alike
import Multilevel.Proofs.Program.BuildData
import Multilevel.Proofs.Terms.Same

/-!
# What a model is refused with

The terms of a model are found, or refused with an error of the specification, whatever roles a
column has at once. Only the number of trials may fail otherwise: where its cells do not stand for
numbers, and where it also groups observations (`TermTree.ofData_own_errors`). Each stage rests on
what the earlier ones have established, so most lemmas say that a stage ends with a value.
-/
namespace Multilevel

variable {ε α β : Type}

/-- Whether all errors that a computation may end with are of some kind. -/
def RefusesOnly (own : ε → Prop) (x : Except ε α) : Prop := ∀ e, x = .error e → own e

namespace RefusesOnly

variable {own : ε → Prop}

/-- A computation with a value is not refused. -/
theorem of_eq_ok {x : Except ε α} {a : α} (done : x = .ok a) : RefusesOnly own x := by
  intro e failed
  rw [done] at failed
  cases failed

/-- Two steps are refused as each of them may be. -/
theorem bind {x : Except ε α} {f : α → Except ε β} (first : RefusesOnly own x)
    (rest : ∀ a, x = .ok a → RefusesOnly own (f a)) : RefusesOnly own (x >>= f) := by
  intro e failed
  rcases bind_eq_error failed with failed | ⟨a, done, failed⟩
  · exact first e failed
  · exact rest a done e failed

/-- A wider kind of errors. -/
theorem imp {wider : ε → Prop} {x : Except ε α} (refused : RefusesOnly own x)
    (widen : ∀ e, own e → wider e) : RefusesOnly wider x :=
  fun e failed => widen e (refused e failed)

variable {ε' : Type} [IsFailure ε'] {own : Failure → Prop}

/-- A refusal is of the kind of its error. -/
theorem refuse {e : ε'} (kind : own (IsFailure.toFailure e)) :
    RefusesOnly own (Multilevel.refuse e : Except Failure α) := by
  intro e' failed
  obtain rfl := Except.error.inj failed
  exact kind

/-- What comes behind a refusal is refused as this is, or as itself. -/
theorem ite_refuse {c : Prop} [Decidable c] {e : ε'} {x : Except Failure α}
    (kind : own (IsFailure.toFailure e)) (rest : ¬c → RefusesOnly own x) :
    RefusesOnly own (if c then Multilevel.refuse e else x) := by
  split
  · exact refuse kind
  · rename_i other
    exact rest other

/-- Computations with errors of one kind are refused only with such. -/
theorem mapError {x : Except ε' α} (kind : ∀ e, x = .error e → own (IsFailure.toFailure e)) :
    RefusesOnly own (x.mapError IsFailure.toFailure) := by
  intro e failed
  cases x with
  | ok a => cases failed
  | error e' =>
    obtain rfl := Except.error.inj failed
    exact kind e' rfl

end RefusesOnly

/-- Whether a failure is an error of the specification. -/
def IsOwn (e : Failure) : Prop := e.isSpecification = true

/-- A formula that does not fit is refused with an error of the specification. -/
theorem validateFormula_own (formula : Formula) (frame : Frame) (family : Family)
    (autocorrelation : Option Autocorrelation) :
    RefusesOnly IsOwn (validateFormula formula frame family autocorrelation) := by
  unfold validateFormula
  refine .ite_refuse rfl fun _ => .ite_refuse rfl fun _ => .ite_refuse rfl fun _ =>
    .ite_refuse rfl fun _ => .ite_refuse rfl fun _ => .of_eq_ok rfl

/-- A formula that fits the data finds the columns that it needs. -/
theorem names_of_validateFormula {formula : Formula} {frame : Frame} {family : Family}
    {autocorrelation : Option Autocorrelation}
    (done : validateFormula formula frame family autocorrelation = .ok ()) :
    ∀ name ∈ Cleaning.neededColumns formula autocorrelation, name ∈ frame.names := by
  unfold validateFormula at done
  simp only [↓refuse_bind, ite_refuse_eq_ok] at done
  have none : ((Cleaning.neededColumns formula autocorrelation).filter fun name =>
      !frame.names.contains name).isEmpty = true := by
    have first := done.1
    rwa [Bool.not_eq_true', Bool.not_eq_false] at first
  intro name mem
  by_contra absent
  have left : name ∈ (Cleaning.neededColumns formula autocorrelation).filter fun name =>
      !frame.names.contains name := List.mem_filter.mpr ⟨mem, by simpa using absent⟩
  rw [List.isEmpty_iff.mp none] at left
  cases left

namespace Column

variable {rows : Nat}

/-- A column without missing cells becomes a factor, if no level of it is listed twice. -/
theorem exists_asFactor {column : Column rows} (complete : ∀ row, column.isMissing row = false)
    (distinct : ∀ levels, column.levels? = some levels → levels.Nodup) :
    ∃ made, column.asFactor = .ok made := by
  have all : (List.finRange rows).any column.isMissing = false := by
    simpa using complete
  unfold asFactor
  split
  · rename_i levels codes
    have kept : ((factor levels codes).presentLevels levels).Nodup :=
      (distinct levels rfl).filter _
    exact ⟨_, if_pos (length_eraseDups_eq_iff.mpr kept)⟩
  · rw [all]
    exact ⟨_, rfl⟩

/-- A column of numbers without missing cells holds keys that are no texts. -/
theorem exists_key?_of_isNumeric {column : Column rows} (numeric : column.isNumeric = true)
    (row : Fin rows) (present : column.isMissing row = false) :
    ∃ key, column.key? row = some key ∧ key.isText = false := by
  cases column with
  | float cells =>
    have number : (cells.get row).isNaN = false := by
      simpa [isMissing, Vector.get_eq_getElem] using present
    show ∃ key, Key.ofFloat? (cells.get row) = some key ∧ _
    unfold Key.ofFloat?
    split
    · rename_i nothing
      rw [Number.isNaN_of_reading nothing] at number
      cases number
    · exact ⟨_, rfl, rfl⟩
    · exact ⟨_, rfl, rfl⟩
  | int cells => exact ⟨_, rfl, rfl⟩
  | unsigned cells => exact ⟨_, rfl, rfl⟩
  | _ => cases numeric

/-- The cells of a column that a model takes can be compared with each other. -/
theorem IsTaken.isOrdered {column : Column rows} (taken : column.IsTaken)
    (complete : ∀ row, column.isMissing row = false) : column.isOrdered = true := by
  have keyed (row : Fin rows) : ∃ key, column.key? row = some key ∧ key.isText = false := by
    rcases taken with numeric | ⟨levels, spanned⟩
    · exact exists_key?_of_isNumeric numeric row (complete row)
    · cases column with
      | factor _ codes =>
        have present := complete row
        simp only [isMissing, Option.isNone_eq_false_iff] at present
        obtain ⟨code, here⟩ := Option.isSome_iff_exists.mp present
        exact ⟨.number (code.val : Int), congrArg (Option.map _) here, rfl⟩
      | _ => cases spanned.levels?
  have plain : (((List.finRange rows).filter fun row => !column.isMissing row).map
      column.key?).all (fun key => key.any fun key => !key.isText) = true := by
    simp only [List.all_map, List.all_eq_true, Function.comp_apply]
    intro row _
    obtain ⟨key, here, other⟩ := keyed row
    rw [here, Option.any_some, other]
    rfl
  unfold Column.isOrdered
  dsimp only
  rw [plain, Bool.or_true]

/-- The cells of a factor without missing cells all have a place among its levels. -/
theorem exists_index {levels : List String} {codes : Vector (Option (Fin levels.length)) rows}
    (complete : ∀ row, (factor levels codes).isMissing row = false) :
    ∃ index : Vector (Fin levels.length) rows, codes = index.map some := by
  have each (row : Fin rows) : ∃ code, codes.get row = some code := by
    have present := complete row
    simp only [isMissing, Option.isNone_eq_false_iff] at present
    exact Option.isSome_iff_exists.mp present
  choose place here using each
  refine ⟨Vector.ofFn place, Vector.ext fun k inside => ?_⟩
  simpa [Vector.get_eq_getElem] using here ⟨k, inside⟩

end Column

namespace Frame

/-- The places of cells that all have one are the group index. -/
theorem groupIndex_of_index {frame : Frame} {name : String} {levels : List String}
    {index : Vector (Fin levels.length) frame.rows}
    (found : frame.column? name = some (.factor levels (index.map some))) :
    frame.groupIndex name = .ok (index.toList.map fun level => level.val + 1) := by
  rw [groupIndex, column_eq_ok.mpr found]
  simp only [bind, Except.bind, Vector.toList_map, List.map_map]
  rfl

/-- Whether no factor of a table lists a level twice. -/
def HasDistinctLevels (frame : Frame) : Prop :=
  ∀ name column levels, frame.column? name = some column → column.levels? = some levels →
    levels.Nodup

/-- Whether levels are listed twice can be tested. -/
theorem hasDistinctLevels_of_all {frame : Frame} (each : (frame.columns.all fun entry =>
    entry.2.levels?.all fun levels => decide levels.Nodup) = true) : frame.HasDistinctLevels := by
  intro name column levels found listed
  have own := List.all_eq_true.mp each _ (Entries.mem_of_lookup found)
  rw [listed, Option.all_some, decide_eq_true_eq] at own
  exact own

/-- The columns of names that stand in a table can be chosen. -/
theorem exists_select {frame : Frame} {names : List String}
    (present : ∀ name ∈ names, name ∈ frame.names) :
    ∃ needed, frame.select names = .ok needed := by
  have each : ∀ name ∈ names, ∃ entry : String × Column frame.rows,
      (do return (name, ← frame.column name) : Except Fault _) = .ok entry := by
    intro name mem
    obtain ⟨column, found⟩ := Entries.exists_lookup_iff.mpr (present name mem)
    exact ⟨(name, column), by rw [column_eq_ok.mpr found]; rfl⟩
  obtain ⟨columns, chosen⟩ := exists_mapM_eq_ok each
  exact ⟨⟨frame.rows, columns⟩, by rw [select, chosen]; rfl⟩

/-- Rows without missing cells can be put in the order of columns that a model takes. -/
theorem exists_sortBy {frame : Frame} {names : List String} (taken : frame.IsTaken)
    (complete : ∀ name column, frame.column? name = some column →
      ∀ row, column.isMissing row = false)
    (present : ∀ name ∈ names, name ∈ frame.names) : ∃ sorted, frame.sortBy names = .ok sorted := by
  have each : ∀ name ∈ names, ∃ column, frame.column name = .ok column := by
    intro name mem
    obtain ⟨column, found⟩ := Entries.exists_lookup_iff.mpr (present name mem)
    exact ⟨column, column_eq_ok.mpr found⟩
  obtain ⟨columns, found⟩ := exists_mapM_eq_ok each
  have own : ∀ column ∈ columns, column.IsTaken ∧ ∀ row, column.isMissing row = false := by
    intro column mem
    obtain ⟨name, _, here⟩ := exists_of_mem_mapM found mem
    exact ⟨taken _ _ (column_eq_ok.mp here), complete _ _ (column_eq_ok.mp here)⟩
  refine ⟨frame.pick (frame.orderedRows columns), ?_⟩
  simp only [sortBy, bind_eq_ok]
  refine ⟨columns, found, ?_⟩
  have whole : columns.any Column.hasCompound = false := by
    rw [List.any_eq_false]
    intro column mem
    rw [(own column mem).1.hasCompound]
    simp
  split
  · rename_i column
    obtain ⟨taken, complete⟩ := own column (List.mem_singleton.mpr rfl)
    rw [taken.isOrdered complete]
    rfl
  · rw [whole]
    rfl

end Frame

namespace Cleaning

/-- Columns without missing cells are converted, if no level of a factor is listed twice. -/
theorem exists_convertColumns {rows : Nat} {formula : Formula} {grouping : List String}
    {columns : List (String × Column rows)}
    (complete : ∀ entry ∈ columns, ∀ row, entry.2.isMissing row = false)
    (distinct : ∀ entry ∈ columns, ∀ levels, entry.2.levels? = some levels → levels.Nodup) :
    ∃ made, convertColumns formula grouping columns = .ok made := by
  refine exists_mapM_eq_ok ?_
  rintro ⟨name, column⟩ mem
  obtain ⟨factor, made⟩ := Column.exists_asFactor (complete _ mem) (distinct _ mem)
  dsimp only
  split
  · exact ⟨_, rfl⟩
  · split
    · exact ⟨(name, factor), by rw [made]; rfl⟩
    · exact ⟨_, rfl⟩

/-- Whether the cells that hold the number of trials do not all stand for numbers. -/
def TrialsFail (formula : Formula) (frame : Frame) (fault : Fault) : Prop :=
  ∃ trials column, formula.trials = some trials ∧ frame.column? trials = some column ∧
    column.numbers = .error fault

/-- The response is refused with an error of the specification, unless the number of trials fails. -/
theorem checkResponse_own (frame : Frame) (formula : Formula) (family : Family)
    (response : formula.response ∈ frame.names)
    (counted : ∀ trials, formula.trials = some trials → trials ∈ frame.names)
    (tried : family.distribution.responseKind = .trials → formula.trials.isSome) :
    RefusesOnly (fun e => IsOwn e ∨ ∃ fault, TrialsFail formula frame fault ∧ e = .fault fault)
      (checkResponse frame formula family) := by
  unfold checkResponse
  dsimp only
  rw [read_eq]
  have stands (name : String) (mem : name ∈ frame.names) : ∃ column : Column frame.rows,
      Frame.column ⟨frame.rows, readColumns formula family frame.columns⟩ name = .ok column := by
    have listed : name ∈ (readColumns formula family frame.columns).map Prod.fst := by
      rw [keys_readColumns]
      exact mem
    obtain ⟨column, found⟩ := Entries.exists_lookup_iff.mpr listed
    exact ⟨column, Frame.column_eq_ok.mpr found⟩
  obtain ⟨column, found⟩ := stands _ response
  refine .bind (.of_eq_ok (mapError_eq_ok.mpr found)) fun column done => ?_
  refine .ite_refuse (.inl rfl) fun numeric => ?_
  rw [Bool.not_eq_true', Bool.not_eq_false] at numeric
  obtain ⟨values, valued⟩ := Column.exists_numbers numeric
  refine .bind (.of_eq_ok (mapError_eq_ok.mpr valued)) fun values _ => ?_
  refine .ite_refuse (.inl rfl) fun _ => ?_
  split
  · exact .of_eq_ok rfl
  refine .ite_refuse (.inl rfl) fun _ => ?_
  cases kind : family.distribution.responseKind with
  | real => exact .of_eq_ok rfl
  | count => exact .ite_refuse (.inl rfl) fun _ => .of_eq_ok rfl
  | binary => exact .ite_refuse (.inl rfl) fun _ => .of_eq_ok rfl
  | trials =>
    obtain ⟨trials, name⟩ := Option.isSome_iff_exists.mp (tried kind)
    dsimp only
    rw [name]
    obtain ⟨given, here⟩ := stands trials (counted trials name)
    rw [Frame.column_eq_ok] at here
    have stored := Entries.lookup_adjust (readColumns formula family frame.columns) formula.response
      (fun _ => asWords values) trials
    rw [show (readColumns formula family frame.columns).lookup trials = some given from here,
      Option.map_some] at stored
    refine .bind (.of_eq_ok (mapError_eq_ok.mpr (Frame.column_eq_ok.mpr stored)))
      fun column counts => ?_
    obtain rfl := Option.some.inj
      (stored.symm.trans (Frame.column_eq_ok.mp (mapError_eq_ok.mp counts)))
    refine .bind (.mapError fun fault failed => ?_)
      fun _ _ => .bind (.mapError fun _ _ => .inl rfl) fun _ _ => .of_eq_ok rfl
    -- The numbers of trials are the response only where both are one column, which holds numbers.
    split at failed
    · cases failed
    · rename_i differs
      have source := (lookup_readColumns_of_ne differs).symm.trans here
      exact .inr ⟨fault, ⟨trials, given, name, source, failed⟩, rfl⟩

/-- Where the response is accepted, the number of trials has not failed. -/
theorem not_trialsFail_of_checkResponse {frame checked : Frame} {formula : Formula}
    {family : Family} (passed : checkResponse frame formula family = .ok checked)
    (kind : family.distribution.responseKind = .trials) (fault : Fault) :
    ¬TrialsFail formula frame fault := by
  rintro ⟨trials, column, tried, found, failed⟩
  obtain ⟨response, values, here, numeric, _, made, rfl, own⟩ := exists_passed passed
  rw [readColumns_of_ne (by simp [kind])] at here own
  cases own with
  | real other | count other | binary other => cases kind.symm.trans other
  | trials _ _ tried' there counted =>
    obtain rfl := Option.some.inj (tried.symm.trans tried')
    have moved := Entries.lookup_adjust frame.columns formula.response (fun _ => asWords values) trials
    rw [show frame.columns.lookup trials = some column from found, Option.map_some] at moved
    obtain rfl := Option.some.inj (moved.symm.trans there)
    split at counted
    · rename_i same
      obtain rfl := Option.some.inj (here.symm.trans (same ▸ found))
      obtain ⟨numbers, valued⟩ := Column.exists_numbers numeric
      rw [valued] at failed
      cases failed
    · cases failed.symm.trans counted

/-- A cleaned table can be put in the order of the residuals. -/
theorem Cleaned.exists_orderRows {formula : Formula} {family : Family} {a : Autocorrelation}
    {raw cleaned : Frame} {origin : Fin cleaned.rows → Fin raw.rows}
    (clean : Cleaned formula family (some a) raw cleaned origin)
    (counted : formula.trials.isSome ↔ family.distribution.responseKind = .trials) :
    ∃ ordered, a.orderRows cleaned = .ok ordered := by
  unfold Autocorrelation.orderRows
  split
  · exact ⟨_, rfl⟩
  · refine Frame.exists_sortBy (clean.isTaken counted) (fun _ _ found => clean.complete found) ?_
    intro name mem
    rw [clean.names, neededColumns, List.mem_eraseDups, List.mem_append]
    refine .inr ?_
    simp only [Autocorrelation.keys, Autocorrelation.names, List.mem_append] at mem ⊢
    exact mem.symm

/-- The complete rows of columns under distinct names are converted, if no level of a factor is
listed twice. -/
theorem exists_convertColumns_complete {frame : Frame} (formula : Formula) (grouping : List String)
    (once : frame.names.Nodup) (distinct : frame.HasDistinctLevels) :
    ∃ made, convertColumns formula grouping frame.complete.columns = .ok made := by
  have source (entry) (mem : entry ∈ frame.complete.columns) : ∃ column : Column frame.rows,
      frame.column? entry.1 = some column ∧ entry.2 = column.pick frame.completeRows := by
    obtain ⟨⟨name, column⟩, inside, rfl⟩ := List.mem_map.mp mem
    exact ⟨column, Entries.lookup_of_mem once inside, rfl⟩
  refine exists_convertColumns (fun entry mem row => ?_) fun entry mem levels listed => ?_
  · obtain ⟨column, found, made⟩ := source entry mem
    rw [made]
    exact (column.isMissing_pick frame.completeRows row).trans
      (frame.isMissing_complete found (List.getElem_mem _))
  · obtain ⟨column, found, made⟩ := source entry mem
    rw [made] at listed
    exact distinct entry.1 column levels found
      ((column.levels?_pick frame.completeRows).symm.trans listed)

/-- The data are refused with an error of the specification, unless the number of trials fails in the
rows that are kept. -/
theorem update_own {frame : Frame} {formula : Formula} {family : Family}
    {autocorrelation : Option Autocorrelation}
    (valid : validateFormula formula frame family autocorrelation = .ok ())
    (distinct : frame.HasDistinctLevels) :
    RefusesOnly (fun e => IsOwn e ∨ ∃ needed fault,
        frame.select (neededColumns formula autocorrelation) = .ok needed ∧
          TrialsFail formula needed.complete fault ∧ e = .fault fault)
      (update frame formula family autocorrelation []).outcome := by
  obtain ⟨_, counted⟩ := validateFormula_eq_ok valid
  unfold update
  simp only [↓Reported.refuse_bind, ↓Reported.outcome_warn_bind, Reported.outcome_bind,
    Reported.outcome_liftM, Reported.outcome_ite, Reported.outcome_refuse, ite_self, List.find?_nil]
  obtain ⟨needed, selected⟩ := Frame.exists_select (names_of_validateFormula valid)
  refine .bind (.of_eq_ok (mapError_eq_ok.mpr selected)) fun _ same => ?_
  obtain rfl := Except.ok.inj (selected.symm.trans (mapError_eq_ok.mp same))
  refine .ite_refuse (.inl rfl) fun nonempty => ?_
  obtain ⟨columns, rfl, names, given⟩ := Frame.select_eq_ok selected
  have once : (Frame.names ⟨frame.rows, columns⟩).Nodup := by
    rw [Frame.names, names]
    exact nodup_eraseDups _
  obtain ⟨converted, converts⟩ := exists_convertColumns_complete formula
    (groupingColumns formula autocorrelation) once fun name column levels found =>
      distinct name column levels (given name column found)
  refine .bind (.of_eq_ok (mapError_eq_ok.mpr converts)) fun _ same => ?_
  obtain rfl := Except.ok.inj (converts.symm.trans (mapError_eq_ok.mp same))
  have steps := convertColumns_eq_ok converts
  have kept : converted.map Prod.fst = neededColumns formula autocorrelation :=
    ((Entries.keys_of_forall₂ (Taken formula _) steps).trans
      (Frame.names_pick ⟨frame.rows, columns⟩ _)).trans names
  have present (name : String) (mem : name ∈ formula.names) : name ∈ converted.map Prod.fst := by
    rw [kept]
    exact List.mem_eraseDups.mpr (List.mem_append_left _ mem)
  refine .bind ?_ fun checked passed => ?_
  · have checkable := checkResponse_own ⟨_, converted⟩ formula family
      (present _ (by simp [Formula.names]))
      (fun trials same => present _ (by simp [Formula.names, same])) counted.mpr
    refine .mapError fun e failed => ?_
    rcases checkable e failed with own | ⟨fault, ⟨trials, column, name, found, fails⟩, rfl⟩
    · exact .inl own
    · -- The number of trials is not converted.
      obtain ⟨picked, here, taken⟩ := Entries.lookup_of_forall₂ (Taken formula _) steps found
      cases taken with
      | outcome => exact .inr ⟨_, fault, selected, ⟨trials, column, name, here, fails⟩, rfl⟩
      | factor other | number other => exact absurd (.inr name.symm) other
  · cases autocorrelation with
    | none => exact .of_eq_ok rfl
    | some a =>
      obtain ⟨stored, rfl, suited⟩ := checkResponse_eq_ok (mapError_eq_ok.mp passed)
      have clean := Cleaned.of_checked names given rfl nonempty converts suited
      obtain ⟨ordered, done⟩ := clean.exists_orderRows counted
      exact .of_eq_ok (mapError_eq_ok.mpr done)

end Cleaning

namespace Design

variable {rows : Nat} {find : Predictors α rows} {all : List Term}

/-- Whether variables of some names are found. -/
def AreFound (find : Predictors α rows) (names : List String) : Prop :=
  ∀ name ∈ names, ∃ predictor, find name = .ok predictor

/-- A term of variables that are found is coded. -/
theorem exists_coding {constant : Bool} {term : Term} (found : AreFound find term.names) :
    ∃ coded, coding find all constant term = .ok coded := by
  unfold coding
  split
  · rename_i name single
    split
    · exact ⟨_, rfl⟩
    · obtain ⟨predictor, here⟩ := found name (by simp [single])
      exact ⟨_, by rw [here]; rfl⟩
  · exact ⟨_, rfl⟩

variable [Mul α] [OfNat α 0] [OfNat α 1]

/-- A term of variables that are found has columns. -/
theorem exists_termColumns {choices : List (String × Bool)}
    (found : AreFound find (choices.map Prod.fst)) :
    ∃ columns, termColumns find choices = .ok columns := by
  unfold termColumns
  generalize ([DesignColumn.ones ""] : List (DesignColumn α rows)) = columns
  induction choices generalizing columns with
  | nil => exact ⟨columns, rfl⟩
  | cons choice rest ih =>
    obtain ⟨⟨predictor, here⟩, others⟩ := List.forall_mem_cons.mp found
    rw [List.foldlM_cons]
    dsimp only
    split
    · exact ih others []
    · rw [here]
      exact ih others _

/-- Terms of variables that are found have columns. -/
theorem exists_columnsOf {constant : Bool} {terms : List Term}
    (found : AreFound find (terms.flatMap Term.names)) :
    ∃ columns, columnsOf find all constant terms = .ok columns := by
  induction terms generalizing constant with
  | nil => exact ⟨[], rfl⟩
  | cons term rest ih =>
    have own : AreFound find term.names := fun name mem => found name (by simp [mem])
    obtain ⟨⟨choices, after⟩, coded⟩ : ∃ coded, coding find all constant term = .ok coded :=
      exists_coding own
    obtain ⟨columns, made⟩ := exists_termColumns (coding_eq_ok coded ▸ own)
    obtain ⟨others, more⟩ : ∃ others, columnsOf find all after rest = .ok others :=
      ih fun name mem => found name (by
        rw [List.flatMap_cons]
        exact List.mem_append_right _ mem)
    refine ⟨columns ++ others, ?_⟩
    rw [columnsOf, bind_eq_ok]
    refine ⟨_, coded, ?_⟩
    dsimp only
    rw [made, more]
    rfl

/-- A design of variables that are found is refused with an error of the specification. -/
theorem matrix_own {intercept : Bool} {terms : List Term}
    (found : AreFound find (terms.flatMap Term.names)) :
    RefusesOnly IsOwn (matrix find intercept terms) := by
  obtain ⟨columns, made⟩ : ∃ columns, columnsOf find terms intercept terms = .ok columns :=
    exists_columnsOf found
  exact .bind (.of_eq_ok (mapError_eq_ok.mpr made)) fun _ _ => .ite_refuse rfl fun _ => .of_eq_ok rfl

end Design

/-- The predictors of a formula are among the variables that it refers to. -/
theorem Formula.mem_names_of_predictor {formula : Formula} {name : String}
    (mem : name ∈ formula.predictors) : name ∈ formula.names := by
  refine List.mem_eraseDups.mpr ?_
  rw [List.append_assoc]
  exact List.mem_append_right _ mem

/-- A grouping factor of a formula is that of one of its terms. -/
theorem Formula.mem_groups {formula : Formula} {name : String} :
    name ∈ formula.groups ↔ ∃ term ∈ formula.groupTerms, term.group = name := by
  rw [groups, List.mem_eraseDups, List.mem_map]

namespace TermTree

/-- Group-level terms are refused with an error of the specification, if their variables are found
and their factors are factors. -/
theorem addGroups_own {frame : Frame} {covariances : List String} {terms : List GroupTerm}
    {built : List Group} {own : Failure → Prop} (wide : ∀ e, IsOwn e → own e)
    (found : ∀ term ∈ terms, Design.AreFound frame.predictors (term.terms.flatMap Term.names))
    (factors : ∀ term ∈ terms, ∃ column, frame.column? term.group = some column ∧
      (column.levels? = none → own (.fault .unknownAttribute))) :
    RefusesOnly own (addGroups frame covariances terms built) := by
  induction terms generalizing built with
  | nil => exact .of_eq_ok rfl
  | cons term rest ih =>
    obtain ⟨first, others⟩ := List.forall_mem_cons.mp found
    obtain ⟨⟨column, here, unlevelled⟩, factors⟩ := List.forall_mem_cons.mp factors
    have design : RefusesOnly own (Design.groupMatrix frame.predictors term) :=
      ((Design.matrix_own first).imp wide).bind fun _ _ => .of_eq_ok rfl
    rw [addGroups]
    refine design.bind fun columns _ => ?_
    dsimp only
    split
    · exact .refuse (wide _ rfl)
    refine .bind (.of_eq_ok (mapError_eq_ok.mpr (Frame.column_eq_ok.mpr here))) fun _ same => ?_
    obtain rfl := Option.some.inj
      (here.symm.trans (Frame.column_eq_ok.mp (mapError_eq_ok.mp same)))
    split
    · exact ih others factors
    · rename_i none
      exact .refuse (unlevelled (Option.eq_none_iff_forall_ne_some.mpr none))

/-- The variables of a table that a model takes are found. -/
theorem areFound_predictors {frame : Frame} {names : List String} (taken : frame.IsTaken)
    (present : ∀ name ∈ names, name ∈ frame.names) :
    Design.AreFound frame.predictors names := by
  intro name mem
  obtain ⟨column, found⟩ := Entries.exists_lookup_iff.mpr (present name mem)
  rcases taken name column found with numeric | ⟨levels, spanned⟩
  · obtain ⟨values, valued⟩ := Column.exists_numbers numeric
    refine ⟨.numeric values, ?_⟩
    rw [Frame.predictors, Frame.column_eq_ok.mpr found]
    show column.predictor = _
    rw [Column.predictor_of_isNumeric numeric, valued]
    rfl
  · obtain ⟨codes, rfl⟩ := Column.exists_factor spanned.levels?
    exact ⟨.factor levels codes, by rw [Frame.predictors, Frame.column_eq_ok.mpr found]; rfl⟩

/-- Why the number of trials makes a model fail otherwise than with an error of the specification. -/
inductive FailsPlainly (formula : Formula) (frame : Frame)
    (autocorrelation : Option Autocorrelation) : Fault → Prop
  /-- A cell in the rows that are kept does not stand for a number. -/
  | cells {needed : Frame} {fault : Fault}
    (selected : frame.select (Cleaning.neededColumns formula autocorrelation) = .ok needed)
    (fails : Cleaning.TrialsFail formula needed.complete fault) :
    FailsPlainly formula frame autocorrelation fault
  /-- The number of trials also groups observations, but is stored as numbers. -/
  | grouping {trials : String} (tried : formula.trials = some trials)
    (grouping : trials ∈ formula.groups) :
    FailsPlainly formula frame autocorrelation .unknownAttribute

variable {formula : Formula} {family : Family} {autocorrelation : Option Autocorrelation}
  {frame cleaned : Frame}

/-- A grouping factor other than the number of trials is a factor of the cleaned data. -/
theorem isSpanned_of_mem_groups
    (valid : validateFormula formula frame family autocorrelation = .ok ())
    (updated : (Cleaning.update frame formula family autocorrelation []).outcome = .ok cleaned)
    {name : String} (mem : name ∈ formula.groups) (untried : some name ≠ formula.trials) :
    ∃ column levels, cleaned.column? name = some column ∧ column.IsSpanned levels ∧
      ∀ row, column.isMissing row = false := by
  obtain ⟨response, _⟩ := validateFormula_eq_ok valid
  obtain ⟨origin, clean⟩ := Cleaning.update_spec updated
  have used : name ∈ formula.predictors := by
    obtain ⟨term, inside, rfl⟩ := Formula.mem_groups.mp mem
    exact List.mem_append_right _ (List.mem_flatMap.mpr ⟨term, inside, by simp⟩)
  have other : ¬Cleaning.IsOutcome formula name := by
    rintro (rfl | same)
    · exact response used
    · exact untried same
  have present : name ∈ cleaned.names := by
    rw [clean.names]
    exact List.mem_eraseDups.mpr (List.mem_append_left _ (Formula.mem_names_of_predictor used))
  obtain ⟨column, found⟩ := Entries.exists_lookup_iff.mpr present
  obtain ⟨levels, spanned⟩ := clean.grouping other (List.mem_append_left _ mem) found
  exact ⟨column, levels, found, spanned, clean.complete found⟩

/-- The terms of cleaned data are refused with an error of the specification, unless the number of
trials groups observations. -/
theorem build_own (valid : validateFormula formula frame family autocorrelation = .ok ())
    (updated : (Cleaning.update frame formula family autocorrelation []).outcome = .ok cleaned) :
    RefusesOnly (fun e => IsOwn e ∨ ∃ fault, FailsPlainly formula frame autocorrelation fault ∧
      e = .fault fault) (build formula family autocorrelation cleaned []) := by
  obtain ⟨_, counted⟩ := validateFormula_eq_ok valid
  obtain ⟨origin, clean⟩ := Cleaning.update_spec updated
  have taken := clean.isTaken counted
  have present (name : String) (mem : name ∈ formula.predictors) : name ∈ cleaned.names := by
    rw [clean.names]
    exact List.mem_eraseDups.mpr (List.mem_append_left _ (Formula.mem_names_of_predictor mem))
  have varying (term : GroupTerm) (mem : term ∈ formula.groupTerms) (name : String)
      (inside : name ∈ term.terms.flatMap Term.names ++ [term.group]) : name ∈ cleaned.names :=
    present name (List.mem_append_right _ (List.mem_flatMap.mpr ⟨term, mem, inside⟩))
  unfold build
  refine .bind ((Design.matrix_own (areFound_predictors taken fun name mem =>
    present name (List.mem_append_left _ mem))).imp fun _ own => .inl own) fun columns _ => ?_
  refine .bind (addGroups_own (fun _ own => .inl own) (fun term mem =>
    areFound_predictors taken fun name inside =>
      varying term mem name (List.mem_append_left _ inside)) fun term mem => ?_)
    fun _ _ => .of_eq_ok rfl
  have grouping : term.group ∈ formula.groups := Formula.mem_groups.mpr ⟨term, mem, rfl⟩
  by_cases tried : some term.group = formula.trials
  · obtain ⟨column, found⟩ := Entries.exists_lookup_iff.mpr
      (varying term mem term.group (List.mem_append_right _ (List.mem_singleton.mpr rfl)))
    exact ⟨column, found, fun _ => .inr ⟨_, .grouping tried.symm grouping, rfl⟩⟩
  · obtain ⟨column, levels, found, spanned, _⟩ := isSpanned_of_mem_groups valid updated grouping tried
    exact ⟨column, found, fun none => by rw [spanned.levels?] at none; cases none⟩

/-- Where the data are cleaned, the cells of the number of trials stand for numbers. -/
theorem not_trialsFail_of_update {needed : Frame} {fault : Fault}
    (valid : validateFormula formula frame family autocorrelation = .ok ())
    (updated : (Cleaning.update frame formula family autocorrelation []).outcome = .ok cleaned)
    (selected : frame.select (Cleaning.neededColumns formula autocorrelation) = .ok needed) :
    ¬Cleaning.TrialsFail formula needed.complete fault := by
  rintro ⟨trials, column, tried, found, failed⟩
  obtain ⟨_, counted⟩ := validateFormula_eq_ok valid
  unfold Cleaning.update at updated
  simp only [↓Reported.refuse_bind, ↓Reported.outcome_warn_bind, Reported.outcome_bind,
    Reported.outcome_liftM, Reported.outcome_ite, Reported.outcome_refuse, ite_self, bind_eq_ok,
    mapError_eq_ok, ite_refuse_eq_ok, selected, Except.ok.injEq, exists_eq_left'] at updated
  obtain ⟨_, converted, converts, checked, passed, _⟩ := updated
  have steps := Cleaning.convertColumns_eq_ok converts
  have kept : trials ∈ converted.map Prod.fst := by
    rw [Entries.keys_of_forall₂ (Cleaning.Taken formula _) steps]
    exact Entries.exists_lookup_iff.mp ⟨column, found⟩
  obtain ⟨other, here⟩ := Entries.exists_lookup_iff.mpr kept
  obtain ⟨given, there, taken⟩ := Entries.lookup_of_forall₂ (Cleaning.Taken formula _) steps here
  obtain rfl := Option.some.inj (there.symm.trans found)
  cases taken with
  | outcome =>
    exact Cleaning.not_trialsFail_of_checkResponse passed
      (counted.mp (Option.isSome_of_eq_some tried)) fault ⟨trials, _, tried, here, failed⟩
  | factor other | number other => exact other (.inr tried.symm)

/-- Where the number of trials fails, there is no tree. -/
theorem FailsPlainly.ne_ok {fault : Fault} (fails : FailsPlainly formula frame autocorrelation fault)
    (valid : validateFormula formula frame family autocorrelation = .ok ())
    (updated : (Cleaning.update frame formula family autocorrelation []).outcome = .ok cleaned)
    (tree : TermTree) : build formula family autocorrelation cleaned [] ≠ .ok tree := by
  intro built
  cases fails with
  | cells selected failed => exact not_trialsFail_of_update valid updated selected failed
  | @grouping trials tried grouping =>
    obtain ⟨_, counted⟩ := validateFormula_eq_ok valid
    obtain ⟨origin, clean⟩ := Cleaning.update_spec updated
    obtain ⟨_, _, groups⟩ := build_eq_ok built
    obtain ⟨term, mem, rfl⟩ := Formula.mem_groups.mp grouping
    obtain ⟨group, inside, rfl⟩ := List.mem_map.mp (groups.terms.symm ▸ mem)
    obtain ⟨column, found, levels⟩ := (groups.built group inside).levels
    rw [Column.levels?_of_isNumeric (clean.isNumeric_outcome counted (.inr tried.symm) found)]
      at levels
    cases levels

/-- Whatever roles a column has: the terms of a model are found, or they are refused with an error
of the specification, or the number of trials fails. In cleaned data every grouping factor other than
the number of trials is a factor with distinct levels, one of which each cell has, and where the
number of trials fails there is no tree. -/
theorem ofData_own_errors (text : String) (choice : FamilyChoice)
    (autocorrelation : Option Autocorrelation) {frame : Frame}
    (distinct : frame.HasDistinctLevels) :
    let outcome := (ofData text (.table frame) choice autocorrelation).outcome
    ((∃ tree, outcome = .ok tree) ∨ (∃ e, outcome = .error e ∧ e.isSpecification = true) ∨
      ∃ formula family fault, Formula.read text = .ok formula ∧ choice.resolve = .ok family ∧
        validateFormula formula frame family autocorrelation = .ok () ∧
        FailsPlainly formula frame autocorrelation fault ∧ outcome = .error (.fault fault)) ∧
    ∀ formula family, Formula.read text = .ok formula → choice.resolve = .ok family →
      validateFormula formula frame family autocorrelation = .ok () →
      (∀ cleaned, (Cleaning.update frame formula family autocorrelation []).outcome = .ok cleaned →
        ∀ name ∈ formula.groups, some name ≠ formula.trials →
          ∃ (levels : List String) (index : Vector (Fin levels.length) cleaned.rows),
            levels.Nodup ∧ cleaned.column? name = some (.factor levels (index.map some)) ∧
              cleaned.groupIndex name = .ok (index.toList.map fun level => level.val + 1)) ∧
      ∀ fault, FailsPlainly formula frame autocorrelation fault → ∀ tree, outcome ≠ .ok tree := by
  intro outcome
  have stages : outcome = (ofData text (.table frame) choice autocorrelation).outcome := rfl
  simp only [ofData, DataSource.frame, Reported.outcome_bind, Reported.outcome_liftM] at stages
  have refused : RefusesOnly (fun e => IsOwn e ∨ ∃ formula family fault,
      Formula.read text = .ok formula ∧ choice.resolve = .ok family ∧
        validateFormula formula frame family autocorrelation = .ok () ∧
        FailsPlainly formula frame autocorrelation fault ∧ e = .fault fault) outcome := by
    rw [stages]
    refine .bind (.mapError fun _ _ => .inl rfl) fun formula read => ?_
    refine .bind (.mapError fun _ _ => .inl rfl) fun family resolved => ?_
    refine .bind (.of_eq_ok rfl) fun _ same => ?_
    obtain rfl := Except.ok.inj same
    refine .bind (.mapError fun e failed => .inl (validateFormula_own _ _ _ _ e failed))
      fun _ valid => ?_
    rw [mapError_eq_ok] at read resolved valid
    refine .bind ((Cleaning.update_own valid distinct).imp fun e kind => kind.imp_right ?_)
      fun cleaned updated => .mapError fun e failed =>
        (build_own valid updated e failed).imp_right fun ⟨fault, fails, same⟩ =>
          ⟨formula, family, fault, read, resolved, valid, fails, same⟩
    rintro ⟨needed, fault, selected, fails, same⟩
    exact ⟨formula, family, fault, read, resolved, valid, .cells selected fails, same⟩
  refine ⟨?_, fun formula family read resolved valid => ⟨fun cleaned updated name mem untried => ?_,
    fun fault fails tree done => ?_⟩⟩
  · cases ended : outcome with
    | ok tree => exact .inl ⟨tree, rfl⟩
    | error e =>
      rcases refused e ended with own | ⟨formula, family, fault, read, resolved, valid, fails, rfl⟩
      · exact .inr (.inl ⟨e, rfl, own⟩)
      · exact .inr (.inr ⟨formula, family, fault, read, resolved, valid, fails, rfl⟩)
  · obtain ⟨column, levels, found, spanned, complete⟩ :=
      isSpanned_of_mem_groups valid updated mem untried
    obtain ⟨codes, rfl⟩ := Column.exists_factor spanned.levels?
    obtain ⟨index, rfl⟩ := Column.exists_index complete
    exact ⟨levels, index, spanned.distinct, found, Frame.groupIndex_of_index found⟩
  · rw [stages] at done
    simp only [bind_eq_ok, mapError_eq_ok, read, resolved, Except.ok.injEq, exists_eq_left',
      pure_eq_ok] at done
    obtain ⟨_, _, cleaned, updated, built⟩ := done
    exact fails.ne_ok valid updated tree built

/-- A small table: successes among counts of trials, and a factor. -/
def counts : Frame where
  rows := 2
  columns := [("y", .int #[1, 2].toVector), ("n", .int #[3, 3].toVector),
    ("g", Column.withLevels (.text #[some "v", some "u"].toVector) ["u", "v"])]

/-- The small table is cleaned, and its factor stays one. -/
theorem counts_own_errors : counts.HasDistinctLevels ∧ ∃ formula cleaned,
    Formula.read "y | trials(n) ~ 1 + (1 | g)" = .ok formula ∧
    (Cleaning.update counts formula (.ofDistribution .binomial) none []).outcome = .ok cleaned ∧
    ∃ (levels : List String) (index : Vector (Fin levels.length) cleaned.rows), levels.Nodup ∧
      cleaned.column? "g" = some (.factor levels (index.map some)) ∧
      cleaned.groupIndex "g" = .ok (index.toList.map fun level => level.val + 1) := by
  have distinct : counts.HasDistinctLevels := Frame.hasDistinctLevels_of_all (by decide)
  obtain ⟨formula, read, grouped⟩ := exists_of_any (Formula.read "y | trials(n) ~ 1 + (1 | g)")
    (fun formula => formula.groups == ["g"] && formula.trials == some "n" &&
      (validateFormula formula counts (.ofDistribution .binomial) none).isOk &&
      (Cleaning.update counts formula (.ofDistribution .binomial) none []).outcome.isOk)
    (by decide +kernel)
  simp only [Bool.and_eq_true, beq_iff_eq] at grouped
  obtain ⟨⟨⟨groups, trials⟩, valid⟩, updated⟩ := grouped
  obtain ⟨_, valid⟩ := exists_of_isOk valid
  obtain ⟨cleaned, updated⟩ := exists_of_isOk updated
  refine ⟨distinct, formula, cleaned, read, updated, ?_⟩
  exact ((ofData_own_errors "y | trials(n) ~ 1 + (1 | g)" (.given (.ofDistribution .binomial)) none
    distinct).2 formula _ read rfl valid).1 cleaned updated "g" (by simp [groups]) (by simp [trials])

/-- A number of trials that is a text is refused without an error of the specification, and so is one
that groups observations. -/
theorem counts_fail :
    (ofData "y | trials(g) ~ 1" (.table counts) (.named "binomial") none).outcome =
        .error (.fault .unconvertible) ∧
      (ofData "y | trials(n) ~ 1 + (1 | n)" (.table counts) (.named "binomial") none).outcome =
        .error (.fault .unknownAttribute) :=
  ⟨eq_error_of_error? (by decide +kernel), eq_error_of_error? (by decide +kernel)⟩

end TermTree

end Multilevel
