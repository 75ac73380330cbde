import Mathlib
import Multilevel.Proofs.Data.Lags
import Multilevel.Proofs.Data.Time
import Multilevel.Proofs.Model.Normalize
import Multilevel.Proofs.Program.Rounds

/-!
# Residuals of ordered observations

With the numbers of lags that the data of a model hold, the loop over the observations stays inside
of its arrays, reads no residual before it is computed, and finds for each lag the residual of the
observation so much earlier in the same series (`Specification.feeds_back`). Series are runs of
observations, and time does not go back inside a run as far as the time column keeps its order.
-/
namespace Multilevel

open Exact (tabulate)
open Autocorrelation (AreContiguous LooksBack IsInTime lagsFrom)

/-- The number of residuals that an observation passes on. -/
def passedOn (series : List (Option Key)) (order n : Nat) : Nat :=
  ((lagsFrom order 1 series)[n]?).getD 0

/-- The numbers of residuals that all observations pass on. -/
theorem lagsFrom_eq_tabulate (series : List (Option Key)) (order : Nat) :
    lagsFrom order 1 series = tabulate series.length (passedOn series order) := by
  apply List.ext_getElem
  · rw [Autocorrelation.length_lagsFrom, Exact.length_tabulate]
  · intro n inside _
    simp [tabulate, passedOn, inside]

/-- What an observation finds at a lag, counted from zero: the residual of the observation that it
looks back on, and zero if there is none. -/
def lookedBack (series : List (Option Key)) (order : Nat) (residual : Nat → Rat) (n i : Nat) :
    Rat :=
  if LooksBack series order n (i + 1) then residual (n - (i + 1)) else 0

namespace Feedback

section Series

variable {series : List (Option Key)} (contiguous : AreContiguous series) (order : Nat)

include contiguous

/-- Residuals are passed on to observations only, and not further than the order. -/
theorem bounded_passedOn : ∀ n < series.length, ∀ i < passedOn series order n,
    i < order ∧ i ≤ n ∧ n + 1 < series.length := by
  intro n inside i below
  obtain ⟨_, limit, within, same⟩ :=
    (Autocorrelation.lt_lagsFrom_iff contiguous inside).mp below
  refine ⟨by omega, by omega, ?_⟩
  by_contra beyond
  have none : series[n + 1]? = none := List.getElem?_eq_none (by omega)
  rw [none, List.getElem?_eq_none_iff] at same
  omega

/-- What is passed on is what the observations look back on. -/
theorem entry_ofLags (response weights base : Nat → Rat) {n : Nat} (inside : n < series.length)
    (i : Nat) :
    (ofLags order (passedOn series order) response weights base).entry n i =
      lookedBack series order (fun k => response k - base k) n i := by
  cases n with
  | zero =>
    have none : ¬LooksBack series order 0 (i + 1) := fun looks => by
      have within := looks.2.2.1
      omega
    exact (if_neg none).symm
  | succ n =>
    have same := @Autocorrelation.lt_lagsFrom_iff _ _ series contiguous order n i (by omega)
    have back : n + 1 - (i + 1) = n - i := by omega
    show (if i < passedOn series order n then response (n - i) - base (n - i) else 0) = _
    rw [lookedBack, back]
    exact if_congr same rfl rfl

end Series

end Feedback

/-- What is required of the accesses to the residuals: every subscript is inside of its array, no
residual is read before it is set, and what the row of an observation holds when it is used is what
the observation looks back on. -/
structure AccessesResiduals (rows order : Nat) (series : List (Option Key)) (residual : Nat → Rat)
    (log : List Access) : Prop where
  /-- Residuals are accessed one by one inside of their vector. -/
  residuals : ∀ access ∈ log, access.target = .residuals →
    ∃ n < rows, access.places = [.single (.int (n + 1 : Nat))] ∧ access.value = .real (residual n)
  /-- No residual is read before it is set. -/
  setFirst : Access.AreSetFirst .residuals [] log
  /-- Once all of them are zero, rows are accessed inside of their matrix. -/
  inside : ∀ access ∈ log, access.target = .residualRows →
    access = .write .residualRows [] (.matrix (tabulate rows fun _ => tabulate order fun _ => 0)) ∨
      ∃ n < rows, access.places = [.single (.int (n + 1 : Nat)), .span 1 order] ∨
        ∃ i < order, access.places = [.single (.int (n + 1 : Nat)), .single (.int (i + 1 : Nat))]
  /-- The row of every observation is used. -/
  used : ∀ n < rows, ∃ x,
    .read .residualRows [.single (.int (n + 1 : Nat)), .span 1 order] x ∈ log
  /-- A row that is used holds what its observation looks back on. -/
  found : ∀ places x, .read .residualRows places x ∈ log → ∃ n < rows,
    places = [.single (.int (n + 1 : Nat)), .span 1 order] ∧
      x = .row (tabulate order (lookedBack series order residual n))

namespace Program

/-- The accesses of the rounds. -/
theorem mem_rounds {rows order : Nat} {lags : Nat → Nat} {f : Feedback} {access : Access} :
    access ∈ (List.range rows).flatMap (roundAccesses order lags f) ↔ ∃ n < rows,
      access = .write .residuals [.single (.int (n + 1 : Nat))] (.real (f.residual n)) ∨
      (∃ i < lags n,
        access = .read .residuals [.single (.int (n - i + 1 : Nat))] (.real (f.residual (n - i))) ∨
        access = .write .residualRows
          [.single (.int (n + 1 + 1 : Nat)), .single (.int (i + 1 : Nat))]
          (.real (f.residual (n - i)))) ∨
      access = .read .residualRows [.single (.int (n + 1 : Nat)), .span 1 order]
        (.row (tabulate order (f.entry n))) := by
  simp only [List.mem_flatMap, List.mem_range, roundAccesses, passAccesses, List.mem_append,
    List.mem_cons, List.not_mem_nil, or_false]

/-- In the rounds, a residual is read after it was set. -/
theorem areSetFirst_rounds {rows order : Nat} {lags : Nat → Nat} {f : Feedback}
    {earlier : List Access} (bounded : ∀ n < rows, ∀ i < lags n, i ≤ n) :
    Access.AreSetFirst .residuals earlier
      ((List.range rows).flatMap (roundAccesses order lags f)) := by
  refine Access.areSetFirst_flatMap_range fun n inside => ?_
  rw [roundAccesses, Access.areSetFirst_append]
  refine ⟨⟨fun _ _ other => (by cases other), trivial⟩, Access.areSetFirst_of_forall ?_⟩
  intro places x mem
  rw [List.mem_append, List.mem_flatMap, List.mem_singleton] at mem
  rcases mem with ⟨i, below, mem⟩ | other
  · rw [List.mem_range] at below
    rw [passAccesses, List.mem_cons, List.mem_singleton] at mem
    rcases mem with same | other
    · obtain ⟨_, rfl, rfl⟩ := Access.read.inj same
      -- The residual was set in this round or in an earlier one.
      rcases Nat.eq_zero_or_pos i with rfl | positive
      · exact List.mem_append_right _ (List.mem_singleton_self _)
      · refine List.mem_append_left _ (List.mem_append_right _ (mem_rounds.mpr ?_))
        have within := bounded n inside i below
        exact ⟨n - i, by omega, .inl rfl⟩
    · cases other
  · cases other

/-- With the numbers of lags of contiguous series, the residuals are accessed as required. -/
theorem accessesResiduals {rows order : Nat} {series : List (Option Key)}
    (contiguous : AreContiguous series) (count : series.length = rows)
    {response weights base : Nat → Rat} {log : List Access}
    (filtered : log.filter isFeedback =
      .write .residualRows [] (.matrix (tabulate rows fun _ => tabulate order fun _ => 0)) ::
        (List.range rows).flatMap (roundAccesses order (passedOn series order)
          (.ofLags order (passedOn series order) response weights base))) :
    AccessesResiduals rows order series (fun n => response n - base n) log := by
  have bounded := Feedback.bounded_passedOn contiguous order
  rw [count] at bounded
  set f := Feedback.ofLags order (passedOn series order) response weights base with made
  have entry {n : Nat} (inside : n < rows) :
      f.entry n = lookedBack series order (fun k => response k - base k) n :=
    funext (Feedback.entry_ofLags contiguous order response weights base (count ▸ inside))
  have logged {access : Access} (kept : isFeedback access = true) :
      access ∈ log ↔ access = .write .residualRows []
          (.matrix (tabulate rows fun _ => tabulate order fun _ => 0)) ∨
        access ∈ (List.range rows).flatMap (roundAccesses order (passedOn series order) f) := by
    rw [← List.mem_cons, ← filtered, List.mem_filter, and_iff_left kept]
  have feedback {access : Access} (target : access.target = .residuals ∨
      access.target = .residualRows) : isFeedback access = true := by
    rw [isFeedback, Bool.or_eq_true, beq_iff_eq, beq_iff_eq]
    exact target
  refine ⟨fun access mem target => ?_, ?_, fun access mem target => ?_, fun n inside => ?_,
    fun places x mem => ?_⟩
  · rcases (logged (feedback (.inl target))).mp mem with rfl | mem
    · cases target
    · obtain ⟨n, inside, rfl | ⟨i, below, rfl | rfl⟩ | rfl⟩ := mem_rounds.mp mem
      · exact ⟨n, inside, rfl, rfl⟩
      · exact ⟨n - i, by omega, rfl, rfl⟩
      · cases target
      · cases target
  · refine Access.areSetFirst_of_filter (fun access target => feedback (.inl target)) ?_
    rw [filtered]
    exact ⟨fun _ _ other => (by cases other),
      areSetFirst_rounds fun n inside i below => (bounded n inside i below).2.1⟩
  · rcases (logged (feedback (.inr target))).mp mem with rfl | mem
    · exact .inl rfl
    · obtain ⟨n, inside, rfl | ⟨i, below, rfl | rfl⟩ | rfl⟩ := mem_rounds.mp mem
      · cases target
      · cases target
      · have within := bounded n inside i below
        exact .inr ⟨n + 1, within.2.2, .inr ⟨i, within.1, rfl⟩⟩
      · exact .inr ⟨n, inside, .inl rfl⟩
  · exact ⟨_, (logged (feedback (.inr rfl))).mpr (.inr (mem_rounds.mpr
      ⟨n, inside, .inr (.inr rfl)⟩))⟩
  · rcases (logged (feedback (.inr rfl))).mp mem with other | mem
    · cases other
    · obtain ⟨n, inside, other | ⟨i, below, other | other⟩ | same⟩ := mem_rounds.mp mem
      · cases other
      · cases other
      · cases other
      · obtain ⟨_, rfl, rfl⟩ := Access.read.inj same
        exact ⟨n, inside, rfl, by rw [entry inside]⟩

end Program

namespace Specification

/-- The values at the start of a program with residuals: the data, a draw of the coefficients and a
weight for each lag. -/
def startFed (s : Specification) (data : BuildData) (draw : Draw) (order : Nat)
    (weights : Nat → Rat) : Values :=
  Function.update (s.start data draw) .feedback (some (.vector (tabulate order weights)))

/-- The program of a specification feeds the residuals of series of observations back, whatever
blanks, draws and weights are: a residual is what the response differs by from the linear predictor
that the matrices give, and to this predictor the weighted residuals are added that the observation
looks back on. -/
def FeedsBack (s : Specification) (m : Matrices s) (order : Nat) (series : List (Option Key))
    (data : BuildData) : Prop :=
  ∃ response : Nat → Rat,
    data.values .response = some (.vector (tabulate s.data.rows response)) ∧
    ∀ (blank : Rat) (draw : Draw) (weights : Nat → Rat), ∃ prepared model residual,
      (Statement.ofList (Program.preparation s)).run blank (fun _ => none)
          (s.startFed data draw order weights) = some prepared ∧
        (Statement.ofList (Program.predictorStatements s)).run blank (fun _ => none) prepared =
          some model ∧
        (∀ n : Fin s.data.rows,
          residual n = response n - m.predictor draw (Program.reported m draw) n) ∧
        model .residuals = some (.vector (tabulate s.data.rows residual)) ∧
        model .predictor = some (.vector (List.ofFn fun n : Fin s.data.rows =>
          m.predictor draw (Program.reported m draw) n +
            ∑ i ∈ Finset.range order, lookedBack series order residual n i * weights i)) ∧
        AccessesResiduals s.data.rows order series residual
          ((Statement.ofList (Program.predictorStatements s)).accesses blank (fun _ => none)
            prepared)

section FeedsBack

variable {a : ModelArguments} {s : Specification} {own : Autocorrelation}
  {m : Matrices s} {values : List (Variable × Datum)}

/-- The order of the residuals is declared with the data. -/
theorem start_order (provided : BuildData.AreProvided s m.columns (Program.dataBlock s) values)
    (structured : s.autocorrelation = some own) :
    (BuildData.ofValues values).values .order = some (.int own.order.toInt) := by
  obtain ⟨_, holds, other, same, rfl⟩ := exists_value provided (v := .order)
    (by simp [Program.dataBlock, Program.lagData, structured, Statement.declared])
  obtain rfl := Option.some.inj (structured.symm.trans same)
  exact holds

/-- The numbers of lags are declared with the data. -/
theorem start_lags (provided : BuildData.AreProvided s m.columns (Program.dataBlock s) values)
    (structured : s.autocorrelation = some own) {lags : List Nat}
    (made : own.lags s.data = .ok lags) :
    (BuildData.ofValues values).values .lags = some (.ints (lags.map Int.ofNat)) := by
  obtain ⟨_, holds, other, lags', same, made', rfl⟩ := exists_value provided (v := .lags)
    (by simp [Program.dataBlock, Program.lagData, structured, Statement.declared])
  obtain rfl := Option.some.inj (structured.symm.trans same)
  obtain rfl := Except.ok.inj (made.symm.trans made')
  exact holds

/-- A response that may be any number is declared with the data. -/
theorem start_response (provided : BuildData.AreProvided s m.columns (Program.dataBlock s) values)
    (real : s.family.distribution.responseKind = .real) : ∃ response : Nat → Rat,
      (BuildData.ofValues values).values .response =
        some (.vector (tabulate s.data.rows response)) := by
  obtain ⟨_, holds, provides⟩ := exists_value provided (v := .response)
    (by simp [Program.dataBlock, Program.responseData, real, Statement.declared])
  rw [BuildData.Provides, if_pos real] at provides
  obtain ⟨cells, rfl⟩ := provides
  refine ⟨fun n => Number.exact (cells[n]?.getD 0.0), holds.trans ?_⟩
  rw [ Datum.exact?, Exact.toList_eq_tabulate cells 0.0, Exact.map_tabulate]

/-- The program of a specification feeds residuals back. -/
theorem feedsBack (normal : IsNormal a s) (given : m.IsGiven)
    (provided : BuildData.AreProvided s m.columns (Program.dataBlock s) values)
    (real : s.family.distribution.responseKind = .real)
    (structured : s.autocorrelation = some own) {series : List (Option Key)}
    (made : own.series s.data = .ok series) (contiguous : AreContiguous series) :
    s.FeedsBack m own.order.toInt.toNat series (.ofValues values) := by
  obtain ⟨response, responds⟩ := start_response provided real
  refine ⟨response, responds, fun blank draw weights => ?_⟩
  set order := own.order.toInt.toNat with limit
  set start := s.startFed (.ofValues values) draw order weights with started
  have count := Autocorrelation.length_series made
  have lagged : own.lags s.data = .ok (lagsFrom order 1 series) := by
    rw [Autocorrelation.lags, made]
    rfl
  have others {v : Variable} (other : v ≠ .feedback) :
      start v = s.start (.ofValues values) draw v := Function.update_of_ne other ..
  have holds : Holds m draw start :=
    (start_holds provided normal given draw).of_agree fun v input =>
      others (by rintro rfl; exact input)
  obtain ⟨prepared, ran, ready, same⟩ :=
    Program.exists_preparation blank (fun _ => none) normal holds
  have kept {v : Variable} (other : ¬Program.IsComputed v) : prepared v = start v := same v other
  have fed : Program.Fed m draw order (passedOn series order) response weights prepared := by
    refine ⟨ready, ?_, ?_, ?_, ?_⟩
    · have whole : (order : Int) = own.order.toInt :=
        Int.toNat_of_nonneg (le_trans (by decide) own.positive)
      rw [kept (by simp [Program.IsComputed]), others (by simp), whole]
      exact start_order provided structured
    · rw [kept (by simp [Program.IsComputed]), others (by simp)]
      refine (start_lags provided structured lagged).trans ?_
      rw [lagsFrom_eq_tabulate, count, Exact.map_tabulate]
      rfl
    · rw [kept (by simp [Program.IsComputed]), others (by simp)]
      exact responds
    · rw [kept (by simp [Program.IsComputed])]
      exact Function.update_self ..
  have bounded := Feedback.bounded_passedOn contiguous order
  rw [count] at bounded
  have computed := @Program.run_predictorStatements_feedback s m draw order (passedOn series order)
    response weights prepared blank (fun _ => none) given fed bounded
    (Option.isSome_iff_exists.mpr ⟨own, structured⟩)
  set base : Nat → Rat := fun n => m.shared draw n + Program.contributions m draw n
  have predicted (n : Fin s.data.rows) :
      base n = m.predictor draw (Program.reported m draw) n := Program.predictor_eq given n
  refine ⟨prepared, _, fun n => response n - base n, ran, computed.1, fun n => ?_, ?_, ?_, ?_⟩
  · exact congrArg (response n - ·) (predicted n)
  · exact Feedback.stored_residuals ..
  · rw [Feedback.stored_predictor]
    refine congrArg (some ∘ Exact.vector) (Exact.tabulate_eq_ofFn fun n => ?_)
    have inside : n.val < series.length := by rw [count]; exact n.isLt
    have entry := Feedback.entry_ofLags contiguous order response weights base inside
    rw [← predicted]
    exact congrArg (base n + ·) (Finset.sum_congr rfl fun i _ => by rw [← entry i]; rfl)
  · exact Program.accessesResiduals contiguous count computed.2

end FeedsBack

/-- With the numbers of lags that its data hold, the program of every accepted model feeds
residuals back inside of series of observations. The series are runs, and time does not go back
inside a run as the cleaned data have it; nor does it in the given data, if cleaning keeps the order
of the column. -/
theorem feeds_back {a : ModelArguments} {s : Specification} {own : Autocorrelation}
    (accepted : (normalize a).outcome = .ok s) (structured : s.autocorrelation = some own) :
    ∃ (raw : Frame) (origin : Fin s.data.rows → Fin raw.rows) (series : List (Option Key))
      (lags : List Nat) (values : List (Variable × Datum)) (m : Matrices s),
      a.data.frame = .ok raw ∧
      Cleaning.Cleaned s.formula s.family s.autocorrelation raw s.data origin ∧
      own.series s.data = .ok series ∧ AreContiguous series ∧
      (∀ name, own.time = some name → ∃ column given,
        s.data.column? name = some column ∧ IsInTime series column.key? ∧
        raw.column? name = some given ∧
        (Cleaning.KeepsOrder s.formula (Cleaning.groupingColumns s.formula s.autocorrelation) name
          given → IsInTime series fun row => given.key? (origin row))) ∧
      own.lags s.data = .ok lags ∧ BuildData.generated s = .ok values ∧
      (BuildData.ofValues values).values .order = some (.int own.order.toInt) ∧
      (BuildData.ofValues values).values .lags = some (.ints (lags.map Int.ofNat)) ∧
      m.IsGiven ∧ s.FeedsBack m own.order.toInt.toNat series (.ofValues values) := by
  have normal := normalize_spec accepted
  obtain ⟨raw, read, valid, updated⟩ := (normalize_eq_ok_iff.mp accepted).data
  have real := responseKind_of_validateFormula valid
    (Option.isSome_iff_exists.mpr ⟨own, structured⟩)
  obtain ⟨origin, clean, keeps⟩ := Cleaning.update_keepsOrderOf real updated
  have ordered : s.data.IsOrderedBy own.keys := by
    obtain ⟨_, _, _, checked, _, _, _, _, _, done⟩ := Cleaning.update_eq_ok updated
    rw [structured, Option.elim_some] at done
    exact Autocorrelation.isOrderedBy_orderRows done
  obtain ⟨m, given⟩ := normal.exists_matrices
  obtain ⟨values, _, made, provided, _⟩ := BuildData.generated_spec normal given.columns
  obtain ⟨lags, lagged⟩ : ∃ lags, own.lags s.data = .ok lags := by
    obtain ⟨_, _, other, lags, same, lagged, _⟩ := exists_value provided (v := .lags)
      (by simp [Program.dataBlock, Program.lagData, structured, Statement.declared])
    obtain rfl := Option.some.inj (structured.symm.trans same)
    exact ⟨lags, lagged⟩
  obtain ⟨series, keyed⟩ : ∃ series, own.series s.data = .ok series := by
    simp only [Autocorrelation.lags, bind_eq_ok, pure_eq_ok] at lagged
    obtain ⟨series, keyed, _⟩ := lagged
    exact ⟨series, keyed⟩
  obtain ⟨contiguous, timed⟩ := Autocorrelation.series_spec ordered keyed
  refine ⟨raw, origin, series, lags, values, m, read, clean, keyed, contiguous,
    fun name time => ?_, lagged, made, start_order provided structured,
    start_lags provided structured lagged, given,
    feedsBack normal given provided real structured keyed contiguous⟩
  obtain ⟨column, found, inTime⟩ := timed name time
  obtain ⟨source, there, kept⟩ := keeps name column found
  exact ⟨column, source, found, inTime, there, fun able i j before same =>
    kept able i j (inTime i j before same)⟩

/-- A small model with residuals of two series, whose observations are not in order of time. -/
def paired : ModelArguments where
  formula := "y ~ x + (1 | g)"
  data := .table ⟨3, [("y", .int #[3, 5, 4].toVector), ("x", .int #[0, 1, 4].toVector),
    ("t", .int #[10, 7, 2].toVector), ("g", .text #[some "a", some "b", some "a"].toVector)]⟩
  autocorrelation := some ⟨2, some "t", some "g", by decide⟩

/-- The small model feeds residuals back, and the given times do not go back in a series. -/
theorem paired_feeds_back : ∃ s own, (normalize paired).outcome = .ok s ∧
    s.autocorrelation = some own ∧
    ∃ (raw : Frame) (origin : Fin s.data.rows → Fin raw.rows) (series : List (Option Key))
      (values : List (Variable × Datum)) (m : Matrices s) (given : Column raw.rows),
      own.series s.data = .ok series ∧ AreContiguous series ∧ raw.column? "t" = some given ∧
      (IsInTime series fun row => given.key? (origin row)) ∧
      BuildData.generated s = .ok values ∧ s.FeedsBack m 2 series (.ofValues values) := by
  obtain ⟨s, accepted, groups⟩ := exists_of_any (normalize paired).outcome
    (fun s => s.formula.groups == ["g"]) (by decide +kernel)
  have structured : s.autocorrelation = paired.autocorrelation :=
    (normalize_spec accepted).autocorrelation
  obtain ⟨raw, origin, series, lags, values, m, read, _, made, contiguous, timed, _, generated, _,
    _, _, feeds⟩ := feeds_back accepted structured
  obtain ⟨_, given, _, _, found, inTime⟩ := timed "t" rfl
  obtain rfl := Except.ok.inj read
  obtain rfl : (.int #[10, 7, 2].toVector : Column 3) = given := Option.some.inj found
  refine ⟨s, _, accepted, structured, _, origin, series, values, m, _, made, contiguous, rfl,
    inTime (.inr ?_), generated, feeds⟩
  rw [structured]
  show "t" ∉ s.formula.groups ++ ["g"]
  rw [eq_of_beq groups]
  decide

/-- A table with times of one digit and of two. -/
def timeTable : Frame := ⟨2, [("y", .int ⟨#[3, 5], rfl⟩), ("t", .int ⟨#[2, 10], rfl⟩)]⟩

/-- A small model whose observations are ordered by a time that also groups them. -/
def factoredTime : ModelArguments where
  formula := "y ~ 1 + (1 | t)"
  data := .table timeTable
  autocorrelation := some ⟨1, some "t", none, by decide⟩

/-- The formula of the small model. -/
def factoredFormula : Formula := ⟨"y", none, true, [], [⟨"t", true, [], true⟩]⟩

/-- What the small model sees of its table: the levels of the time stand in the order of their
characters, and so do the rows. -/
def factoredTable : Frame :=
  ⟨2, [("y", .int ⟨#[5, 3], rfl⟩), ("t", .factor ["10", "2"] ⟨#[some 0, some 1], rfl⟩)]⟩

/-- The table of the small model is cleaned. -/
theorem update_factoredTime :
    (Cleaning.update timeTable factoredFormula .gaussian factoredTime.autocorrelation []).outcome =
      .ok factoredTable := by
  let columns : List (String × Column 2) := [("y", .int ⟨#[3, 5], rfl⟩),
    ("t", .factor ["10", "2"] ⟨#[some 1, some 0], rfl⟩)]
  have selected : timeTable.select (Cleaning.neededColumns factoredFormula
      factoredTime.autocorrelation) = .ok timeTable := rfl
  have complete : timeTable.complete = timeTable := by cbv
  have converted : Cleaning.convertColumns factoredFormula
      (Cleaning.groupingColumns factoredFormula factoredTime.autocorrelation)
        timeTable.columns = .ok columns := by cbv
  obtain ⟨checked, passed⟩ := exists_of_isOk
    (show (Cleaning.checkResponse ⟨2, columns⟩ factoredFormula .gaussian).isOk = true by
      decide +kernel)
  obtain rfl := Cleaning.checkResponse_of_real rfl passed
  have ordered : Autocorrelation.orderRows ⟨1, some "t", none, by decide⟩ ⟨2, columns⟩ =
      .ok factoredTable := by cbv
  exact Cleaning.update_of_complete selected complete (by decide) converted passed ordered

/-- The small model is accepted. -/
theorem exists_normalize_factoredTime :
    ∃ s, (normalize factoredTime).outcome = .ok s ∧ s.data = factoredTable ∧
      s.formula = factoredFormula := by
  obtain ⟨formula, read, same⟩ := exists_of_any (Formula.read factoredTime.formula)
    (· == factoredFormula) (by decide +kernel)
  obtain rfl := eq_of_beq same
  have valid : validateFormula factoredFormula timeTable .gaussian factoredTime.autocorrelation =
      .ok () := by decide +kernel
  obtain ⟨terms, built, placed⟩ := exists_of_any
    (TermTree.build factoredFormula .gaussian factoredTime.autocorrelation factoredTable [])
    (fun terms => (Priors.merge terms [] .no).isOk) (by decide +kernel)
  obtain ⟨priors, placed⟩ := exists_of_isOk placed
  obtain ⟨fragments, collected⟩ := exists_of_isOk
    (show (Fragments.collect none none).outcome.isOk = true by decide +kernel)
  have knots : checkAllKnots factoredFormula [] = .ok [] := checkAllKnots_of_ordered .nil (by simp)
  have covariances : CovarianceSource.checkAll [] terms = .ok [] := by
    rw [CovarianceSource.checkAll, List.mergeSort_nil]
    rfl
  exact ⟨⟨factoredFormula, .gaussian, factoredTable, terms, priors, [],
    factoredTime.autocorrelation, [], false, [], fragments, .no, terms.excluded true false⟩,
    normalize_eq_ok_iff.mpr ⟨read, rfl, rfl, ⟨_, rfl, valid, update_factoredTime⟩, rfl, knots,
      built, covariances, rfl, placed, rfl, collected, rfl⟩, rfl, rfl⟩

/-- The time of the small model goes back. -/
theorem time_goes_back : ∃ s own,
    (normalize factoredTime).outcome = .ok s ∧ s.autocorrelation = some own ∧
    own.time = some "t" ∧ ∃ raw given series, factoredTime.data.frame = .ok raw ∧
      raw.column? "t" = some given ∧ own.series s.data = .ok series ∧
      ∀ origin, Cleaning.Cleaned s.formula s.family s.autocorrelation raw s.data origin →
        ¬IsInTime series fun row => given.key? (origin row) := by
  obtain ⟨s, accepted, data, formula⟩ := exists_normalize_factoredTime
  have structured : s.autocorrelation = factoredTime.autocorrelation :=
    (normalize_spec accepted).autocorrelation
  refine ⟨s, _, accepted, structured, rfl, _, .int ⟨#[2, 10], rfl⟩, _, rfl, rfl, rfl,
    fun origin clean inTime => ?_⟩
  rw [formula] at clean
  generalize s.data = table at data origin clean inTime
  subst data
  obtain ⟨given, found, kept⟩ := clean.kept
    (show ¬Cleaning.IsOutcome factoredFormula "t" by simp [Cleaning.IsOutcome, factoredFormula]) rfl
  obtain rfl := Option.some.inj (found.symm.trans rfl)
  let times : Column 2 := .int ⟨#[2, 10], rfl⟩
  have first : ∀ row : Fin 2, some "10" = times.level? row → row = 1 := by decide +kernel
  have second : ∀ row : Fin 2, some "2" = times.level? row → row = 0 := by decide +kernel
  have back : Key.leMissing (times.key? (origin (0 : Fin 2))) (times.key? (origin (1 : Fin 2))) =
      true := inTime (0 : Fin 2) (1 : Fin 2) (by decide) rfl
  rw [first _ (kept (0 : Fin 2)), second _ (kept (1 : Fin 2))] at back
  exact absurd back (by decide +kernel)

end Specification

end Multilevel
