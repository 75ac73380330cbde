import Multilevel.Proofs.Data.RowOrder
import Multilevel.Proofs.Model.Normalize
import Multilevel.Proofs.Model.OwnErrors
import Multilevel.Proofs.Terms.Related

/-!
# Models of rows in another order

Without a structure of the residuals, the rows of the data may come in any order: the arguments are
accepted or refused alike, and what is accepted differs in the order of the kept rows only
(`Specification.normalize_pick`). Refusals may differ where several cells of the number of trials
stand for no numbers, because the first of these decides. With series and times that tell all rows
apart the rows are put into one order, whatever order they come in
(`Specification.normalize_pick_ordered`).
-/
namespace Multilevel

/-- Whether failures are the same, or faults each of which is blamed on the data. -/
inductive FailAlike (blamed : Fault → Prop) : Failure → Failure → Prop
  | same (e) : FailAlike blamed e e
  | blamed {fault fault'} (first : blamed fault) (second : blamed fault') :
    FailAlike blamed (.fault fault) (.fault fault')

/-- More faults may be blamed on the data. -/
theorem FailAlike.imp {blamed blamed' : Fault → Prop} {e e' : Failure}
    (widen : ∀ fault, blamed fault → blamed' fault) (alike : FailAlike blamed e e') :
    FailAlike blamed' e e' := by
  cases alike with
  | same => exact .same _
  | blamed first second => exact .blamed (widen _ first) (widen _ second)

namespace Cleaning

variable {rows : Nat} {chosen : List (Fin rows)} {formula : Formula} {family : Family}

/-- Columns are converted row by row, as far as the order of the rows is concerned. -/
theorem convertColumns_pick (all : ∀ row, row ∈ chosen) (formula : Formula)
    (grouping : List String) (columns : List (String × Column rows)) :
    EndAlike (fun made made' => made' = (Frame.pick ⟨rows, made⟩ chosen).columns)
      (convertColumns formula grouping columns)
      (convertColumns formula grouping (Frame.pick ⟨rows, columns⟩ chosen).columns) := by
  show EndAlike (fun made (made' : List (String × Column chosen.length)) =>
      made' = made.map fun entry => (entry.1, entry.2.pick chosen))
    (convertColumns formula grouping columns) (convertColumns formula grouping
      (columns.map fun entry => (entry.1, entry.2.pick chosen)))
  refine EndAlike.mapM_map ?_
  rintro ⟨name, column⟩ _
  have kind : (column.pick chosen).isCategorical = column.isCategorical :=
    congrArg not (column.isNumeric_pick chosen)
  dsimp only
  rw [kind]
  split
  · exact .ok rfl
  · split
    · rw [column.asFactor_pick all]
      cases column.asFactor with
      | ok => exact .ok rfl
      | error e => exact .error e
    · exact .ok rfl

/-- Changing the cells of a column row by row commutes with picking rows. -/
theorem adjust_pick {f : Column rows → Column rows}
    {f' : Column chosen.length → Column chosen.length}
    (moved : ∀ column, f' (column.pick chosen) = (f column).pick chosen) (name : String)
    (columns : List (String × Column rows)) :
    Entries.adjust (Frame.pick ⟨rows, columns⟩ chosen).columns name f' =
      (Frame.pick ⟨rows, Entries.adjust columns name f⟩ chosen).columns := by
  simp only [Frame.pick, Entries.adjust, List.map_map]
  refine List.map_congr_left fun entry _ => ?_
  simp only [Function.comp_apply, Prod.mk.injEq, true_and]
  split
  · exact moved entry.2
  · rfl

/-- Truth values become integers row by row. -/
theorem truthsAsIntegers_pick (column : Column rows) :
    truthsAsIntegers (column.pick chosen) = (truthsAsIntegers column).pick chosen := by
  cases column <;> simp [truthsAsIntegers, Column.pick]

/-- Picked numbers are stored as picked integers. -/
theorem asWords_pick {values : Vector Float rows} {values' : Vector Float chosen.length}
    (same : IsPicked chosen values values') :
    asWords values' = (asWords values).pick chosen := by
  have cells : values'.map Number.toInt64 =
      .ofFn fun row => (values.map Number.toInt64).get (chosen.get row) :=
    Vector.ext fun i inside => by
      simpa [Vector.get_eq_getElem] using same.map Number.toInt64 ⟨i, inside⟩
  rw [asWords, asWords, Column.pick_eq_along, Column.along, cells]

/-- Whether a cell of the number of trials stands for no number, in a row of some kind. -/
def TrialsFailIn (formula : Formula) (frame : Frame) (kept : Fin frame.rows → Bool) (fault : Fault) :
    Prop :=
  ∃ trials column row, formula.trials = some trials ∧ frame.column? trials = some column ∧
    kept row = true ∧ column.numberAt row = .error fault

/-- Numbers of trials are checked in whatever order. -/
theorem checkTrials_pick (all : ∀ row, row ∈ chosen) {successes trials : Vector Float rows}
    {successes' trials' : Vector Float chosen.length} (first : IsPicked chosen successes successes')
    (second : IsPicked chosen trials trials') (name familyName : String) :
    checkTrials name familyName successes' trials' =
      checkTrials name familyName successes trials := by
  have pairs := first.zipWith second Prod.mk
  have zipped {n : Nat} (u v : Vector Float n) :
      u.toList.zip v.toList = (u.zipWith Prod.mk v).toList := by
    rw [Vector.toList_zipWith, List.zip]
  unfold checkTrials
  dsimp only
  rw [second.all_eq all, zipped, zipped, pairs.any_eq all]

/-- Picked rows of a column of numbers have the numbers of the rows. -/
theorem numbers_pick_of_isNumeric {column : Column rows} {blamed : Fault → Prop}
    (all : ∀ row, row ∈ chosen) (numeric : column.isNumeric = true) :
    EndTogether (FailAlike blamed) (IsPicked chosen)
      (liftM column.numbers : Except Failure (Vector Float rows))
      (liftM (column.pick chosen).numbers) := by
  obtain ⟨values, valued⟩ := Column.exists_numbers numeric
  obtain ⟨values', valued', picked⟩ := (column.numbers_pick all).exists_ok valued
  rw [valued, valued']
  exact .ok picked

/-- The number of trials is checked and stored in whatever order of the rows, unless it fails. -/
theorem countTrials_pick {blamed : Fault → Prop} (all : ∀ row, row ∈ chosen)
    {stored : List (String × Column rows)} {stored' : List (String × Column chosen.length)}
    (name familyName : String) {successes : Vector Float rows}
    {successes' : Vector Float chosen.length} (first : IsPicked chosen successes successes')
    (blame : ∀ column row fault, stored.lookup name = some column →
      column.numberAt row = .error fault → blamed fault)
    (same : stored' = (Frame.pick ⟨rows, stored⟩ chosen).columns) :
    EndTogether (FailAlike blamed) (fun checked checked' => ∃ made, checked = ⟨rows, made⟩ ∧
        checked' = Frame.pick ⟨rows, made⟩ chosen)
      (do
        let trials ← (← Frame.column ⟨rows, stored⟩ name).numbers
        checkTrials name familyName successes trials
        return ⟨rows, Entries.adjust stored name fun _ => asWords trials⟩ : Except Failure Frame)
      (do
        let trials ← (← Frame.column ⟨chosen.length, stored'⟩ name).numbers
        checkTrials name familyName successes' trials
        return ⟨chosen.length, Entries.adjust stored' name fun _ => asWords trials⟩) := by
  subst same
  have found := (Frame.column_pick ⟨rows, stored⟩ chosen name).lift
  refine (EndTogether.of_alike found .same).reached.bind ?_
  rintro column _ ⟨rfl, here, _⟩
  have numbers : EndTogether (FailAlike blamed) (IsPicked chosen)
      (liftM column.numbers : Except Failure (Vector Float rows))
      (liftM (column.pick chosen).numbers) := by
    refine (column.numbers_pick all).mapError _ ?_
    rintro fault fault' ⟨⟨row, own⟩, row', other⟩
    have given := Frame.column_eq_ok.mp (mapError_eq_ok.mp here)
    exact .blamed (blame column row fault given own) (blame column row' fault' given other)
  refine numbers.bind fun trials trials' second => ?_
  rw [checkTrials_pick all first second]
  refine .bind_self .same fun _ _ => .ok ⟨_, rfl, ?_⟩
  exact congrArg (Frame.mk _) (adjust_pick (fun _ => asWords_pick second) name stored)

/-- A response is read row by row. -/
theorem readAs_pick (kind : ResponseKind) (column : Column rows) :
    readAs kind (column.pick chosen) = (readAs kind column).pick chosen := by
  unfold readAs
  split
  · exact truthsAsIntegers_pick column
  · rfl

/-- A response is checked in whatever order of the rows, unless the number of trials fails. -/
theorem checkResponse_pick (all : ∀ row, row ∈ chosen) (formula : Formula) (family : Family)
    (columns : List (String × Column rows)) :
    EndTogether (FailAlike (TrialsFailIn formula ⟨rows, columns⟩ fun _ => true))
      (fun checked checked' => ∃ made, checked = ⟨rows, made⟩ ∧
        checked' = Frame.pick ⟨rows, made⟩ chosen)
      (checkResponse ⟨rows, columns⟩ formula family)
      (checkResponse (Frame.pick ⟨rows, columns⟩ chosen) formula family) := by
  have picked : readColumns formula family (Frame.pick ⟨rows, columns⟩ chosen).columns =
      (Frame.pick ⟨rows, readColumns formula family columns⟩ chosen).columns :=
    adjust_pick (readAs_pick _) formula.response columns
  obtain ⟨prepared, same⟩ : ∃ prepared, readColumns formula family columns = prepared := ⟨_, rfl⟩
  unfold checkResponse
  dsimp only
  rw [read_eq, read_eq, picked, same]
  have refused {u v : Bool} (same : v = u) : (!u) = true ↔ (!v) = true := by rw [same]
  have found (stored : List (String × Column rows)) (name : String) :=
    (Frame.column_pick ⟨rows, stored⟩ chosen name).lift
  refine (EndTogether.of_alike (found prepared formula.response) .same).bind ?_
  rintro column _ rfl
  refine .ite (refused (column.isNumeric_pick chosen)) (fun _ => .error (.same _)) fun numeric => ?_
  rw [Bool.not_eq_true', Bool.not_eq_false] at numeric
  refine (numbers_pick_of_isNumeric all numeric).bind fun values values' picked => ?_
  refine .ite (refused (picked.all_eq all _)) (fun _ => .error (.same _)) fun _ => ?_
  refine .ite Iff.rfl (fun _ => .ok ⟨prepared, rfl, rfl⟩) fun _ => ?_
  refine .ite (refused (picked.all_eq all _)) (fun _ => .error (.same _)) fun _ => ?_
  have stored : Entries.adjust (Frame.pick ⟨rows, prepared⟩ chosen).columns formula.response
      (fun _ => asWords values') = (Frame.pick ⟨rows, Entries.adjust prepared formula.response
        fun _ => asWords values⟩ chosen).columns :=
    adjust_pick (fun _ => asWords_pick picked) formula.response prepared
  cases kind : family.distribution.responseKind with
  | real => exact .ok ⟨prepared, rfl, rfl⟩
  | count =>
    exact .ite (Bool.eq_iff_iff.mp (picked.any_eq all _).symm) (fun _ => .error (.same _)) fun _ => .ok ⟨_, rfl, congrArg (Frame.mk _) stored⟩
  | binary =>
    exact .ite (refused (picked.all_eq all _)) (fun _ => .error (.same _)) fun _ => .ok ⟨_, rfl, congrArg (Frame.mk _) stored⟩
  | trials =>
    cases tried : formula.trials with
    | none => exact .error (.same _)
    | some trials =>
      refine countTrials_pick all trials _ picked ?_ stored
      intro column row fault here failed
      rcases lookup_adjust_asWords here with ⟨_, integers⟩ | ⟨differs, given⟩
      · cases column with
        | int => cases failed
        | _ => cases integers
      · have source := (lookup_readColumns_of_ne differs).symm.trans (same ▸ given)
        exact ⟨trials, column, row, tried, source, rfl, failed⟩

/-- How an order of the rows that are kept comes about: by picking all rows in some order. -/
def Follows (kept : Fin rows → Bool) (chosen : List (Fin rows)) {count : Nat}
    (order : List (Fin count)) : Prop :=
  order.Perm (List.finRange count) ∧ ∃ origin : Fin count → Fin rows,
    List.ofFn origin = (List.finRange rows).filter kept ∧ order.map origin = chosen.filter kept

/-- The complete ones of the picked rows of some columns follow the order in which all rows are
picked. -/
theorem exists_follows {frame : Frame} {chosen : List (Fin frame.rows)} {names : List String}
    {columns : List (String × Column frame.rows)}
    (selected : frame.select names = .ok ⟨frame.rows, columns⟩)
    (perm : chosen.Perm (List.finRange frame.rows)) :
    ∃ order : List (Fin (Frame.complete ⟨frame.rows, columns⟩).rows),
      Follows (frame.isCompleteIn names) chosen order ∧
        (Frame.pick ⟨frame.rows, columns⟩ chosen).complete =
          (Frame.complete ⟨frame.rows, columns⟩).pick order := by
  obtain ⟨order, permuted, moved, same⟩ := @Frame.complete_pick ⟨frame.rows, columns⟩ chosen perm
  have complete : Frame.isComplete ⟨frame.rows, columns⟩ = frame.isCompleteIn names :=
    funext (Frame.isComplete_of_select selected)
  refine ⟨order, ⟨permuted, (Frame.completeRows ⟨frame.rows, columns⟩).get, ?_, ?_⟩, same⟩
  · rw [← complete]
    exact List.ofFn_get _
  · rw [← complete]
    exact moved

/-- The cleaned table before its rows are put in order. -/
def unordered (frame : Frame) (formula : Formula) (family : Family)
    (autocorrelation : Option Autocorrelation) (knots : List String) : Except Failure Frame := do
  let needed ← frame.select (neededColumns formula autocorrelation)
  if needed.complete.rows = 0 then refuse DataError.noRows
  let columns ← convertColumns formula (groupingColumns formula autocorrelation)
    needed.complete.columns
  let checked ← checkResponse ⟨needed.complete.rows, columns⟩ formula family
  match knots.find? fun name => !formula.names.contains name with
  | some name => refuse (DataError.knotsUnknown name)
  | none => return checked

/-- Cleaning ends with putting the rows in order. -/
theorem outcome_update (frame : Frame) (formula : Formula) (family : Family)
    (autocorrelation : Option Autocorrelation) (knots : List String) :
    (update frame formula family autocorrelation knots).outcome =
      unordered frame formula family autocorrelation knots >>= fun checked =>
        match autocorrelation with
        | some a => liftM (a.orderRows checked)
        | none => return checked := by
  unfold update unordered
  simp only [↓Reported.refuse_bind, ↓Reported.outcome_warn_bind, Reported.outcome_bind,
    Reported.outcome_liftM, Reported.outcome_ite, Reported.outcome_refuse, ite_self, bind_assoc,
    ↓refuse_bind]
  refine bind_congr fun needed => ?_
  by_cases none : needed.complete.rows = 0
  · rw [if_pos none, if_pos none]
    rfl
  rw [if_neg none, if_neg none, bind_assoc]
  refine bind_congr fun columns => ?_
  rw [bind_assoc]
  have own (x : Except Failure Frame) : x.mapError IsFailure.toFailure = x := by cases x <;> rfl
  rw [own]
  refine bind_congr fun checked => ?_
  cases knots.find? fun name => !formula.names.contains name with
  | some => rfl
  | none => cases autocorrelation <;> rfl

/-- Numbers of trials that fail after the conversion are numbers of trials of the kept rows. -/
theorem TrialsFailIn.of_converted {frame : Frame} {names grouping : List String}
    {columns : List (String × Column frame.rows)}
    {converted : List (String × Column (Frame.complete ⟨frame.rows, columns⟩).rows)} {fault : Fault}
    (selected : frame.select names = .ok ⟨frame.rows, columns⟩)
    (converts : convertColumns formula grouping (Frame.complete ⟨frame.rows, columns⟩).columns =
      .ok converted) (failed : TrialsFailIn formula ⟨_, converted⟩ (fun _ => true) fault) :
    TrialsFailIn formula frame (frame.isCompleteIn names) fault := by
  obtain ⟨trials, column, row, tried, found, _, failed⟩ := failed
  obtain ⟨picked, here, taken⟩ :=
    Entries.lookup_of_forall₂ (Taken formula _) (convertColumns_eq_ok converts) found
  obtain ⟨given, there, rfl⟩ := Frame.of_column?_pick ⟨frame.rows, columns⟩ here
  obtain ⟨_, same, _, source⟩ := Frame.select_eq_ok selected
  obtain rfl : columns = _ := by simpa using same
  cases taken with
  | outcome =>
    refine ⟨trials, given, _, tried, source trials given there, ?_,
      (given.numberAt_pick _ row).symm.trans failed⟩
    rw [← Frame.isComplete_of_select selected]
    exact (List.mem_filter.mp (List.getElem_mem _)).2
  | factor other | number other => exact absurd (.inr tried.symm) other

/-- The cleaned rows of a table are the same in whatever order the rows come, apart from their order,
unless the number of trials fails. -/
theorem unordered_pick {frame : Frame} {chosen : List (Fin frame.rows)}
    (perm : chosen.Perm (List.finRange frame.rows)) (formula : Formula) (family : Family)
    (autocorrelation : Option Autocorrelation) (knots : List String) :
    EndTogether (FailAlike (TrialsFailIn formula frame
        (frame.isCompleteIn (neededColumns formula autocorrelation))))
      (fun made made' => ∃ order : List (Fin made.rows),
        Follows (frame.isCompleteIn (neededColumns formula autocorrelation)) chosen order ∧
          made' = made.pick order)
      (unordered frame formula family autocorrelation knots)
      (unordered (frame.pick chosen) formula family autocorrelation knots) := by
  have selection := (frame.select_pick chosen (neededColumns formula autocorrelation)).lift
  refine (EndTogether.of_alike selection .same).reached.bind ?_
  rintro _ _ ⟨⟨columns, rfl, rfl⟩, selected, _⟩
  have selected := mapError_eq_ok.mp selected
  obtain ⟨order, follows, same⟩ := exists_follows selected perm
  have permuted := follows.1
  have all := mem_of_perm permuted
  rw [same]
  have size := permuted.length_eq
  rw [List.length_finRange] at size
  refine .ite (Eq.congr_left size.symm) (fun _ => .error (.same _)) fun _ => ?_
  have conversion := (convertColumns_pick all formula
    (groupingColumns formula autocorrelation) (Frame.complete ⟨frame.rows, columns⟩).columns).lift
  refine (EndTogether.of_alike conversion .same).reached.bind ?_
  rintro converted _ ⟨rfl, converts, _⟩
  have converts := mapError_eq_ok.mp converts
  have checks := (checkResponse_pick all formula family converted).imp
    (fun _ _ => FailAlike.imp fun _ failed => failed.of_converted selected converts) fun _ _ => id
  refine checks.bind ?_
  rintro _ _ ⟨made, rfl, rfl⟩
  cases knots.find? fun name => !formula.names.contains name with
  | some => exact .error (.same _)
  | none => exact .ok ⟨order, follows, rfl⟩

end Cleaning

namespace Design

variable {rows : Nat}

/-- Picking rows is kept by products of columns. -/
theorem isKept_picked (chosen : List (Fin rows)) :
    IsKept (α := Float) (IsPicked chosen) where
  ones := .replicate chosen 1
  times first second := first.zipWith second (· * ·)

/-- What the picked rows of a column contribute is what the column contributes, its rows picked. -/
theorem predictor_pick {column : Column rows} {chosen : List (Fin rows)} (taken : column.IsTaken)
    (all : ∀ row, row ∈ chosen) :
    EndAlike (Predictor.Related (IsPicked chosen)) column.predictor
      (column.pick chosen).predictor := by
  rcases taken with numeric | ⟨levels, spanned⟩
  · obtain ⟨values, valued⟩ := Column.exists_numbers numeric
    obtain ⟨values', valued', picked⟩ := (column.numbers_pick all).exists_ok valued
    rw [Column.predictor_of_isNumeric numeric, Column.predictor_of_isNumeric
      ((column.isNumeric_pick chosen).trans numeric), valued, valued']
    exact .ok (.numeric picked)
  · obtain ⟨codes, rfl⟩ := Column.exists_factor spanned.levels?
    rw [Column.pick_eq_along]
    exact .ok (.factor fun level => (IsPicked.ofFn chosen codes).map _)

/-- The variables of picked rows are those of the rows, their rows picked. -/
theorem areRelated_pick {frame : Frame} {chosen : List (Fin frame.rows)} (taken : frame.IsTaken)
    (all : ∀ row, row ∈ chosen) (names : List String) :
    AreRelated (IsPicked chosen) frame.predictors (frame.pick chosen).predictors names := by
  intro name _
  refine (frame.column_pick chosen name).reached.bind ?_
  rintro column _ ⟨rfl, found, _⟩
  exact predictor_pick (taken name column (Frame.column_eq_ok.mp found)) all

end Design

/-- The terms of a model do not depend on the order of the rows. -/
theorem TermTree.build_pick {frame : Frame} {chosen : List (Fin frame.rows)}
    (taken : frame.IsTaken) (all : ∀ row, row ∈ chosen) (formula : Formula) (family : Family)
    (autocorrelation : Option Autocorrelation) (covariances : List String) :
    build formula family autocorrelation (frame.pick chosen) covariances =
      build formula family autocorrelation frame covariances :=
  Eq.symm <| build_related (Design.isKept_picked chosen) (fun _ => rfl)
    (Design.areRelated_pick taken all _) fun term _ =>
      (frame.column_pick chosen term.group).imp fun column _ same =>
        same ▸ (column.levels?_pick chosen).symm

/-- A formula that fits the data fits them in any order of the rows. -/
theorem validateFormula_pick (formula : Formula) (frame : Frame) (chosen : List (Fin frame.rows))
    (family : Family) (autocorrelation : Option Autocorrelation) :
    validateFormula formula (frame.pick chosen) family autocorrelation =
      validateFormula formula frame family autocorrelation := by
  unfold validateFormula
  rw [Frame.names_pick]

/-- Rows that an autoregressive structure tells apart are put into one order, whatever order they are
in. -/
theorem Autocorrelation.orderRows_pick {r : Autocorrelation} {frame ordered : Frame}
    {chosen : List (Fin frame.rows)} (perm : chosen.Perm (List.finRange frame.rows))
    (timed : r.time.isSome = true) (grouped : r.group.isSome = true)
    (keyed : ordered.IsKeyedBy r.keys) (done : r.orderRows frame = .ok ordered) :
    r.orderRows (frame.pick chosen) = .ok ordered := by
  obtain ⟨time, timed⟩ := Option.isSome_iff_exists.mp timed
  obtain ⟨group, grouped⟩ := Option.isSome_iff_exists.mp grouped
  have keys : r.keys = [group, time] := by simp [Autocorrelation.keys, timed, grouped]
  rw [Autocorrelation.orderRows, keys] at done ⊢
  rw [keys] at keyed
  obtain ⟨order, reordered, rfl⟩ := Frame.sortBy_eq_ok done
  have all := mem_of_perm reordered
  exact Frame.sortBy_pick perm (by simp) (keyed.of_pick all) done

/-- Putting rows in order leaves them different. -/
theorem Autocorrelation.isKeyedBy_orderRows {r : Autocorrelation} {frame ordered : Frame}
    {names : List String} (done : r.orderRows frame = .ok ordered)
    (keyed : frame.IsKeyedBy names) : ordered.IsKeyedBy names := by
  unfold orderRows at done
  split at done
  · exact Except.ok.inj done ▸ keyed
  · obtain ⟨order, reordered, rfl⟩ := Frame.sortBy_eq_ok done
    exact keyed.pick (reordered.nodup_iff.mpr (List.nodup_finRange _))

namespace Specification

variable {a : ModelArguments} {data : DataSource} {frame : Frame} {chosen : List (Fin frame.rows)}

/-- The rows that a model keeps of a table. -/
def keptRows (formula : Formula) (autocorrelation : Option Autocorrelation) (frame : Frame)
    (row : Fin frame.rows) : Bool :=
  frame.isCompleteIn (Cleaning.neededColumns formula autocorrelation) row

/-- Whether a cell of the number of trials stands for no number, in a row that is kept. -/
def TrialsFail (a : ModelArguments) (frame : Frame) (fault : Fault) : Prop :=
  ∃ formula, Formula.read a.formula = .ok formula ∧
    Cleaning.TrialsFailIn formula frame (keptRows formula none frame) fault

/-- Without a structure of the residuals, a specification of rows in another order is the
specification with its rows in that order, unless the number of trials fails. -/
theorem normalize_pick (given : a.data.frame = .ok frame)
    (moved : data.frame = .ok (frame.pick chosen)) (perm : chosen.Perm (List.finRange frame.rows))
    (free : a.autocorrelation = none) :
    EndTogether (FailAlike (TrialsFail a frame))
      (fun s s' => ∃ order : List (Fin s.data.rows),
        Cleaning.Follows (keptRows s.formula none frame) chosen order ∧
          s' = { s with data := s.data.pick order })
      (normalize a).outcome (normalize { a with data }).outcome := by
  simp only [normalize, Reported.outcome_bind, Reported.outcome_pure, Reported.outcome_liftM, given,
    moved, free, Cleaning.outcome_update, bind_pure]
  refine .bind_self .same fun formula read => .bind_self .same fun family _ => ?_
  show EndTogether _ _ (a.samplePrior.resolve.mapError _ >>= _)
    (a.samplePrior.resolve.mapError _ >>= _)
  refine .bind_self .same fun sample _ => ?_
  rw [validateFormula_pick]
  refine .bind_self .same fun _ valid => ?_
  have blame (fault) (failed : Cleaning.TrialsFailIn formula frame
      (keptRows formula none frame) fault) : TrialsFail a frame fault :=
    ⟨formula, mapError_eq_ok.mp read, failed⟩
  have updates := (Cleaning.unordered_pick perm formula family none (a.knots.map Prod.fst)).imp
    (fun _ _ => FailAlike.imp blame) fun _ _ => id
  refine updates.reached.bind ?_
  rintro cleaned _ ⟨⟨order, follows, rfl⟩, done, _⟩
  have updated : (Cleaning.update frame formula family none (a.knots.map Prod.fst)).outcome =
      .ok cleaned := by
    rw [Cleaning.outcome_update, done]
    rfl
  obtain ⟨origin, clean⟩ := Cleaning.update_spec updated
  have taken := clean.isTaken (validateFormula_eq_ok (mapError_eq_ok.mp valid)).2
  have all := mem_of_perm follows.1
  rw [TermTree.build_pick taken all]
  exact .bind_self .same fun knots _ => .bind_self .same fun terms _ =>
    .bind_self .same fun covariances _ => .bind_self .same fun givenPriors _ =>
    .bind_self .same fun priors _ => .bind_self .same fun fragments _ => .ok ⟨order, follows, rfl⟩

/-- Whether the kept rows differ in their keys can be seen before they are put in order. -/
theorem isKeyedBy_data {s : Specification} {names : List String} {checked : Frame}
    (given : a.data.frame = .ok frame) (done : (normalize a).outcome = .ok s)
    (found : Cleaning.unordered frame s.formula s.family s.autocorrelation
      (a.knots.map Prod.fst) = .ok checked) (keyed : checked.IsKeyedBy names) :
    s.data.IsKeyedBy names := by
  obtain ⟨raw, read, _, updated⟩ := (normalize_eq_ok_iff.mp done).data
  obtain rfl := Except.ok.inj (given.symm.trans read)
  rw [Cleaning.outcome_update, found] at updated
  cases structured : s.autocorrelation with
  | none =>
    rw [structured] at updated
    exact Except.ok.inj updated ▸ keyed
  | some r =>
    rw [structured] at updated
    exact Autocorrelation.isKeyedBy_orderRows (mapError_eq_ok.mp updated) keyed

/-- With series and times that tell the kept rows apart, the specification does not depend on the order
of the rows. -/
theorem normalize_pick_ordered {s : Specification} {r : Autocorrelation}
    (given : a.data.frame = .ok frame) (moved : data.frame = .ok (frame.pick chosen))
    (perm : chosen.Perm (List.finRange frame.rows)) (structured : a.autocorrelation = some r)
    (timed : r.time.isSome = true) (grouped : r.group.isSome = true)
    (done : (normalize a).outcome = .ok s) (keyed : s.data.IsKeyedBy r.keys) :
    (normalize { a with data }).outcome = .ok s := by
  rw [normalize_eq_ok_iff] at done ⊢
  obtain ⟨raw, read, valid, updated⟩ := done.data
  obtain rfl := Except.ok.inj (given.symm.trans read)
  refine { done with data := ⟨_, moved, ?_, ?_⟩ }
  · exact (validateFormula_pick ..).trans valid
  · rw [Cleaning.outcome_update, done.autocorrelation, structured] at updated ⊢
    obtain ⟨checked, found, ordered⟩ := bind_eq_ok.mp updated
    obtain ⟨_, found', order, follows, rfl⟩ :=
      (Cleaning.unordered_pick perm ..).exists_ok found
    refine bind_eq_ok.mpr ⟨_, found', mapError_eq_ok.mpr ?_⟩
    exact Autocorrelation.orderRows_pick follows.1 timed grouped keyed (mapError_eq_ok.mp ordered)

end Specification

end Multilevel
