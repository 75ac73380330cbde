import Multilevel.Proofs.Data.Retained

/-!
# Cleaning again

Cleaning depends on the complete rows of the needed columns alone, so it does not matter whether other
rows and columns are there. A clean table that is accepted again is returned as it is, without a warning
(`Cleaning.update_retains`).
-/
namespace Multilevel

namespace Frame

variable {frame : Frame}

/-- A table with distinct names selects itself by them. -/
theorem select_names (distinct : frame.names.Nodup) : frame.select frame.names = .ok frame := by
  refine select_eq_ok_iff.mpr ⟨frame.columns, rfl, ?_⟩
  refine List.forall₂_map_left_iff.mpr (List.forall₂_same.mpr fun entry mem => ⟨rfl, ?_⟩)
  exact Entries.lookup_of_mem distinct mem

/-- All rows of a table without missing cells are complete. -/
theorem completeRows_of_complete (distinct : frame.names.Nodup)
    (full : ∀ name column, frame.column? name = some column → ∀ row, column.isMissing row = false) :
    frame.completeRows = List.finRange frame.rows := by
  refine List.filter_eq_self.mpr fun row _ => List.all_eq_true.mpr fun entry mem => ?_
  simp [full entry.1 entry.2 (Entries.lookup_of_mem distinct mem) row]

/-- A table whose rows stand in the order of some columns keeps it. -/
theorem pick_orderedRows_of_ordered {names : List String} (ordered : frame.IsOrderedBy names)
    {columns : List (Column frame.rows)}
    (found : List.Forall₂ (fun name column => frame.column? name = some column) names columns) :
    frame.pick (frame.orderedRows columns) = frame := by
  obtain ⟨own, here, sorted⟩ := ordered
  obtain rfl : columns = own := by
    clear sorted
    induction found generalizing own with
    | nil => exact (List.forall₂_nil_left_iff.mp here).symm
    | cons first _ ih =>
      cases here with
      | cons second others => rw [Option.some.inj (first.symm.trans second), ih _ others]
  rw [orderedRows_of_ordered sorted, pick_finRange]

/-- Columns are selected alike from tables in which they are found alike. -/
theorem select_congr {rows : Nat} {columns others : List (String × Column rows)} {names : List String}
    (same : ∀ name ∈ names, column? ⟨rows, others⟩ name = column? ⟨rows, columns⟩ name) :
    select ⟨rows, others⟩ names = select ⟨rows, columns⟩ names := by
  have found : ∀ name ∈ names, column ⟨rows, others⟩ name = column ⟨rows, columns⟩ name := by
    intro name mem
    unfold column
    rw [same name mem]
    cases column? ⟨rows, columns⟩ name <;> rfl
  have listed : (names.mapM fun name => do return (name, ← column ⟨rows, others⟩ name)) =
      names.mapM fun name => do return (name, ← column ⟨rows, columns⟩ name) := by
    clear same
    induction names with
    | nil => rfl
    | cons name rest ih =>
      rw [List.mapM_cons, List.mapM_cons, found name List.mem_cons_self,
        ih fun name mem => found name (.tail _ mem)]
  unfold select
  rw [listed]

/-- Of picked rows that are all complete ones and any others in their order, the complete rows are those
of the table. -/
theorem complete_pick_of_sublist {kept : List (Fin frame.rows)}
    (some : kept.Sublist (List.finRange frame.rows))
    (all : ∀ row, frame.isComplete row = true → row ∈ kept) :
    (frame.pick kept).complete = frame.complete := by
  have ordered := List.pairwise_lt_finRange frame.rows
  have rows : kept.filter frame.isComplete = frame.completeRows := by
    refine List.Perm.eq_of_pairwise (fun a b _ _ less more => absurd more (lt_asymm less))
      ((ordered.sublist some).filter _) (ordered.filter _) ?_
    have distinct := List.nodup_finRange frame.rows
    refine (List.perm_ext_iff_of_nodup ((distinct.sublist some).filter _)
      (distinct.filter _)).mpr fun row => ?_
    rw [List.mem_filter, List.mem_filter, and_iff_right (List.mem_finRange row)]
    exact and_iff_right_of_imp (all row)
  rw [complete_of_pick, rows]
  rfl

end Frame

namespace Cleaning

open Number

/-- Factors, and numbers that do not group observations, are converted to themselves. -/
theorem convertColumns_self {rows : Nat} {formula : Formula} {grouping : List String}
    {columns : List (String × Column rows)}
    (taken : ∀ entry ∈ columns, IsOutcome formula entry.1 ∨ (∃ levels, entry.2.IsSpanned levels) ∨
      entry.1 ∉ grouping ∧ entry.2.isNumeric = true) :
    convertColumns formula grouping columns = .ok columns := by
  unfold convertColumns
  refine mapM_eq_ok.mpr (List.forall₂_same.mpr fun entry mem => ?_)
  simp only [Bool.or_eq_true, decide_eq_true_eq, List.contains_iff_mem]
  split
  · rfl
  rename_i other
  rcases taken entry mem with outcome | ⟨levels, spanned⟩ | ⟨free, numeric⟩
  · exact absurd outcome other
  · split
    · rw [spanned.asFactor]
      rfl
    · rfl
  · rw [if_neg (by simp [free, Column.isCategorical, numeric])]
    rfl

/-- A checked response is returned as it is if the words that are stored of the outcome are those that
are there. -/
theorem checkResponse_self {frame checked : Frame} {formula : Formula} {family : Family}
    (distinct : frame.names.Nodup)
    (restored : ∀ name column, IsStored formula family name → frame.column? name = some column →
      ∃ cells : Vector Int frame.rows, column = .int cells ∧
        ∀ row, toInt64 (ofInt (cells.get row)) = cells.get row)
    (passed : checkResponse frame formula family = .ok checked) : checked = frame := by
  obtain ⟨made, rfl, suited⟩ := checkResponse_eq_ok passed
  suffices same : frame.columns = made from congrArg (Frame.mk frame.rows) same.symm
  refine Entries.eq_of_lookup suited.names.symm distinct fun name => ?_
  by_cases own : IsStored formula family name
  · obtain ⟨columns, responses, same, counted⟩ := exists_counted passed own.discrete
    obtain rfl : made = columns := by simpa using same
    obtain ⟨given, stored, numbers, here, there, stores, _⟩ := counted.exists_stores own
    obtain ⟨cells, rfl, again⟩ := restored name given own here
    obtain ⟨words, rfl, word⟩ := stores.words
    have plain : readAs family.distribution.responseKind (Column.int cells) = .int cells := by
      unfold readAs
      split <;> rfl
    have kept : words = cells := Vector.ext fun i bound => by
      have read := stores.read ⟨i, bound⟩
      rw [plain] at read
      have number : ofInt (cells.get ⟨i, bound⟩) = numbers ⟨i, bound⟩ := Except.ok.inj read
      exact (word ⟨i, bound⟩).trans (number ▸ again ⟨i, bound⟩)
    exact here.trans (kept ▸ there.symm)
  · exact (lookup_of_not_isStored passed own).symm

/-- Cleaning sees the complete rows of the needed columns alone: rows that miss a needed cell may be
dropped before, and other columns may come and go. -/
theorem update_of_kept {raw : Frame} {kept : List (Fin raw.rows)}
    {columns : List (String × Column kept.length)} {formula : Formula} {family : Family}
    {autocorrelation : Option Autocorrelation} {knots : List String}
    (some : kept.Sublist (List.finRange raw.rows))
    (all : ∀ row, raw.isCompleteIn (neededColumns formula autocorrelation) row = true → row ∈ kept)
    (same : ∀ name ∈ neededColumns formula autocorrelation,
      Frame.column? ⟨kept.length, columns⟩ name = (raw.pick kept).column? name) :
    (update ⟨kept.length, columns⟩ formula family autocorrelation knots).outcome =
      (update raw formula family autocorrelation knots).outcome := by
  have selection : EndAlike (fun needed needed' => needed'.complete = needed.complete)
      (raw.select (neededColumns formula autocorrelation))
      (Frame.select ⟨kept.length, columns⟩ (neededColumns formula autocorrelation)) := by
    rw [Frame.select_congr same]
    refine (raw.select_pick kept _).reached.imp ?_
    rintro _ _ ⟨⟨columns, rfl, rfl⟩, selected, _⟩
    refine Frame.complete_pick_of_sublist some fun row complete => all row ?_
    rwa [← Frame.isComplete_of_select selected]
  rw [outcome_update, outcome_update]
  congr 1
  refine Eq.symm (EndAlike.eq ?_)
  unfold unordered
  refine selection.lift.bind fun needed needed' complete => ?_
  rw [complete]
  exact .refl (fun _ => rfl) _

namespace Steps

variable {formula : Formula} {family : Family} {autocorrelation : Option Autocorrelation}
  {raw : Frame} (steps : Steps formula family autocorrelation raw)

/-- The result has the needed columns, each once. -/
theorem nodup_names : steps.result.names.Nodup := by
  rw [steps.clean.names]
  exact nodup_eraseDups _

/-- The result selects itself. -/
theorem select_result :
    steps.result.select (neededColumns formula autocorrelation) = .ok steps.result := by
  rw [← steps.clean.names]
  exact Frame.select_names steps.nodup_names

/-- The rows of the result are complete. -/
theorem complete_result : steps.result.complete = steps.result := by
  rw [Frame.complete, Frame.completeRows_of_complete steps.nodup_names fun _ _ => steps.clean.complete,
    Frame.pick_finRange]

/-- The columns of the result are as the model takes them. -/
theorem convertColumns_result :
    convertColumns formula (groupingColumns formula autocorrelation) steps.result.columns =
      .ok steps.result.columns := by
  refine convertColumns_self fun entry mem => ?_
  have found := Entries.lookup_of_mem steps.nodup_names mem
  by_cases outcome : IsOutcome formula entry.1
  · exact .inl outcome
  refine .inr ?_
  by_cases grouped : entry.1 ∈ groupingColumns formula autocorrelation
  · exact .inl (steps.clean.grouping outcome grouped found)
  · rcases steps.clean.taken outcome found with numeric | spanned
    · exact .inr ⟨grouped, numeric⟩
    · exact .inl spanned

/-- The outcome of the result, stored again, is the same. -/
theorem checkResponse_result {checked : Frame}
    (passed : checkResponse steps.result formula family = .ok checked) : checked = steps.result := by
  refine checkResponse_self steps.nodup_names (fun name column own found => ?_) passed
  obtain ⟨responses, counted⟩ := steps.counted own.discrete
  obtain ⟨given, stored, numbers, _, there, stores, kinds⟩ := counted.exists_stores own
  obtain rfl := Option.some.inj (there.symm.trans found)
  obtain ⟨cells, rfl, word⟩ := stores.words
  refine ⟨cells, rfl, fun row => ?_⟩
  obtain ⟨short, fits⟩ := isShort_toInt64 (kinds row)
  rw [word]
  exact (restored short fits).2.2

/-- Cleaning the result again gives it back. -/
theorem again {knots : List String} {cleaned : Frame}
    (done : (update steps.result formula family autocorrelation knots).outcome = .ok cleaned) :
    cleaned = steps.result := by
  rw [outcome_update, bind_eq_ok] at done
  obtain ⟨checked, taken, ordered⟩ := done
  simp only [unordered, bind_eq_ok, mapError_eq_ok, liftM_eq_mapError, ite_refuse_eq_ok,
    ↓refuse_bind] at taken
  obtain ⟨needed, selected, taken⟩ := taken
  obtain rfl := Except.ok.inj (steps.select_result.symm.trans selected)
  rw [steps.complete_result] at taken
  obtain ⟨_, converted, converts, stored, passed, taken⟩ := taken
  obtain rfl := Except.ok.inj (steps.convertColumns_result.symm.trans converts)
  obtain rfl := steps.checkResponse_result passed
  split at taken
  · exact absurd taken (by simp [refuse_ne_ok])
  obtain rfl := Except.ok.inj taken
  cases autocorrelation with
  | none => exact (Except.ok.inj ordered).symm
  | some a =>
    obtain ⟨keys, found, rfl⟩ := orderRows_eq_ok (mapError_eq_ok.mp ordered)
    exact Frame.pick_orderedRows_of_ordered steps.stably_ordered.isOrderedBy found

/-- Cleaning the result again issues no warning. -/
theorem warnings_again (knots : List String) :
    (update steps.result formula family autocorrelation knots).warnings = [] := by
  unfold update
  refine Reported.warnings_bind rfl fun needed selected => ?_
  obtain rfl := Except.ok.inj (steps.select_result.symm.trans (mapError_eq_ok.mp selected))
  -- All rows are complete, so none are dropped; what follows does not warn.
  simp only [steps.complete_result, lt_irrefl, if_false, ↓Reported.refuse_bind]
  split
  · rfl
  refine Reported.warnings_bind rfl fun columns _ => Reported.warnings_bind rfl fun checked _ => ?_
  split
  · rfl
  · cases autocorrelation <;> rfl

end Steps

/-- Cleaning keeps the needed columns of the complete rows, in the order of the series and of time; it
does not depend on what else the table has, and a table that it accepts again comes back unchanged and
without a warning. -/
theorem update_retains {raw cleaned : Frame} {formula : Formula} {family : Family}
    {autocorrelation : Option Autocorrelation} {knots : List String}
    (done : (update raw formula family autocorrelation knots).outcome = .ok cleaned) :
    (∃ origin, Cleaned formula family autocorrelation raw cleaned origin ∧
      Retains formula family autocorrelation raw cleaned origin) ∧
    (∀ (kept : List (Fin raw.rows)) (columns : List (String × Column kept.length)),
      kept.Sublist (List.finRange raw.rows) →
      (∀ row, raw.isCompleteIn (neededColumns formula autocorrelation) row = true → row ∈ kept) →
      (∀ name ∈ neededColumns formula autocorrelation,
        Frame.column? ⟨kept.length, columns⟩ name = (raw.pick kept).column? name) →
      (update ⟨kept.length, columns⟩ formula family autocorrelation knots).outcome = .ok cleaned) ∧
    ∀ again, (update cleaned formula family autocorrelation knots).outcome = .ok again →
      again = cleaned ∧
        (update cleaned formula family autocorrelation knots).warnings = [] := by
  obtain ⟨steps, rfl⟩ := exists_steps done
  refine ⟨⟨_, steps.clean, steps.retains⟩, fun kept columns some all same => ?_, fun again returned => ?_⟩
  · rw [update_of_kept some all same, done]
  · exact ⟨steps.again returned, steps.warnings_again knots⟩

/-- Two series in no order, one row of which belongs to neither, and a column that is not needed. -/
def strayTable : Frame := ⟨4, [("u", .bool #[true, false, true, true].toVector),
  ("t", .int #[9, 8, 7, 1].toVector),
  ("g", Column.withLevels (.text #[some "b", some "a", none, some "b"].toVector) ["b", "a"]),
  ("f", Column.withLevels (.text #[some "v", some "w", some "z", some "w"].toVector) ["w", "z", "v"]),
  ("y", .float #[0.5, 1.0, 2.5, 2.0].toVector)]⟩

/-- The residuals of each series follow each other in time. -/
def strayResiduals : Autocorrelation := ⟨4, some "t", some "g", by decide⟩

/-- The rows that belong to a series. -/
def strayKept : List (Fin strayTable.rows) := ([0, 1, 3] : List (Fin 4))

/-- A model of the two series, with some structure of the residuals. -/
def strayFormula : Formula := ⟨"y", none, true, [⟨["f"]⟩], [⟨"g", true, [⟨["t"]⟩], true⟩]⟩

/-- Cleaning for that model. -/
def cleanStray (table : Frame) (residuals : Option Autocorrelation) : Reported Frame :=
  update table strayFormula .gaussian residuals []

/-- The table is cleaned alike without the row and the column that are not needed, and what becomes of
it is accepted again. -/
theorem stray_retains :
    (∃ cleaned, (cleanStray strayTable strayResiduals).outcome = .ok cleaned ∧
      (∃ origin, Retains strayFormula .gaussian strayResiduals strayTable cleaned origin) ∧
      (cleanStray ⟨strayKept.length, (strayTable.pick strayKept).columns.tail⟩
        strayResiduals).outcome = .ok cleaned) ∧
    ∃ cleaned again, (cleanStray strayTable none).outcome = .ok cleaned ∧
      (cleanStray cleaned none).outcome = .ok again ∧ again = cleaned ∧
        (cleanStray cleaned none).warnings = [] := by
  constructor
  · obtain ⟨cleaned, done⟩ := exists_of_isOk (x := (cleanStray strayTable strayResiduals).outcome)
      (by decide +kernel)
    obtain ⟨⟨origin, _, retains⟩, alike, _⟩ := update_retains done
    refine ⟨cleaned, done, ⟨origin, retains⟩,
      alike strayKept _ (by decide +kernel) (by decide +kernel) ?_⟩
    have needed : neededColumns strayFormula strayResiduals = ["y", "f", "t", "g"] := by
      decide +kernel
    simp only [needed, List.forall_mem_cons]
    exact ⟨rfl, rfl, rfl, rfl, List.forall_mem_nil _⟩
  · obtain ⟨again, twice⟩ := exists_of_isOk (x := (cleanStray strayTable none).outcome >>=
      fun cleaned => (cleanStray cleaned none).outcome) (by decide +kernel)
    obtain ⟨cleaned, done, returned⟩ := bind_eq_ok.mp twice
    exact ⟨cleaned, again, done, returned, (update_retains done).2.2 again returned⟩

end Cleaning

end Multilevel
