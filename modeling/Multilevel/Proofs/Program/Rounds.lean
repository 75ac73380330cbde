import Mathlib
import Multilevel.Proofs.Program.Accesses
import Multilevel.Proofs.Program.Feedback

/-!
# Rounds of the loop over the observations

With autoregressive residuals, the loop over the observations computes the residual of each one,
writes it ahead into the rows of the observations that look back on it, and adds to the linear
predictor what the row of the observation holds (`Program.run_observationLoop_feedback`).
-/
namespace Multilevel

open Exact (tabulate)
open Specification (Matrices)

namespace Program

/-- What the variables hold that residuals are fed back with. -/
structure Fed {s : Specification} (m : Matrices s) (draw : Draw) (limit : Nat) (lags : Nat → Nat)
    (response weights : Nat → Rat) (values : Values) : Prop extends Prepared m draw values where
  order : values .order = some (.int limit)
  lags : values .lags = some (.ints (tabulate s.data.rows fun n => (lags n : Int)))
  response : values .response = some (.vector (tabulate s.data.rows response))
  weights : values .feedback = some (.vector (tabulate limit weights))

/-- Whether an access is to the residuals or to the rows that hold what is looked back on. -/
def isFeedback (access : Access) : Bool :=
  access.target == .residuals || access.target == .residualRows

/-- What does not use the residuals does not access them. -/
theorem filter_isFeedback {log : List Access} {uses : List Variable}
    (within : ∀ access ∈ log, access.target ∈ uses) (first : .residuals ∉ uses)
    (second : .residualRows ∉ uses) : log.filter isFeedback = [] := by
  refine List.filter_eq_nil_iff.mpr fun access mem here => ?_
  rw [isFeedback, Bool.or_eq_true, beq_iff_eq, beq_iff_eq] at here
  rcases here with same | same
  · exact first (same ▸ within access mem)
  · exact second (same ▸ within access mem)

/-- An expression that does not use the residuals does not read them. -/
theorem filter_reads {counts : Counts} {values : Values} {e : Expr}
    (first : .residuals ∉ e.uses) (second : .residualRows ∉ e.uses) :
    (e.reads counts values).filter isFeedback = [] :=
  filter_isFeedback (fun _ mem => Expr.target_of_mem_reads mem) first second

/-- The statement that computes the residual of an observation. -/
def residualStatement : Statement :=
  .assign (Expr.element .residuals Counter.observation)
    (Expr.element .response Counter.observation - Expr.element .predictor Counter.observation)

/-- The statement that passes a residual on to the next observation. -/
def passStatement : Statement :=
  .assign (.subscript Variable.residualRows
      ((Expr.counter .observation + .literal "1").and Counter.place))
    (Expr.element .residuals (Expr.counter .observation + .literal "1" - .counter .place))

/-- The statement that adds to the linear predictor what an observation looks back on. -/
def feedStatement : Statement :=
  .add (Expr.element .predictor Counter.observation)
    (.subscript Variable.residualRows
        ((Expr.counter .observation).and (.binary .upTo (.literal "1") Variable.order)) *
      Expr.var .feedback)

theorem feedbackStatements_eq : feedbackStatements = [residualStatement,
    .forEach .place (Expr.element .lags Counter.observation) passStatement, feedStatement] := rfl

/-- The declaration of the linear predictor. -/
def predictorDeclaration : Statement :=
  .declare (.vector {} Variable.observations) .predictor
    (some (.call "rep_vector" ((Expr.literal "0.0").and Variable.observations))) ""

/-- The declaration of the residuals that observations look back on. -/
def rowsDeclaration : Statement :=
  .declare (.matrix Variable.observations Variable.order) .residualRows
    (some (.call "rep_matrix"
      ((Expr.literal "0").list [Variable.observations, Variable.order]))) ""

/-- The declaration of the residuals. -/
def residualsDeclaration : Statement :=
  .declare (.vector {} Variable.observations) .residuals none ""

/-- The declarations in order. -/
def declarations : List Statement :=
  [predictorDeclaration, rowsDeclaration, residualsDeclaration]

/-- With residuals, the linear predictor is computed from these declarations on. -/
theorem predictorStatements_eq {s : Specification} (structured : s.autocorrelation.isSome = true) :
    predictorStatements s = declarations ++ sharedStatements s ++ observationLoop s := by
  rw [predictorStatements, residualDeclarations, if_pos structured]
  rfl

/-- The accesses by which an observation passes on the residual of a lag. -/
def passAccesses (f : Feedback) (n i : Nat) : List Access :=
  [.read .residuals [.single (.int (n - i + 1 : Nat))] (.real (f.residual (n - i))),
    .write .residualRows [.single (.int (n + 1 + 1 : Nat)), .single (.int (i + 1 : Nat))]
      (.real (f.residual (n - i)))]

/-- The accesses to the residuals in the round of an observation. -/
def roundAccesses (order : Nat) (lags : Nat → Nat) (f : Feedback) (n : Nat) : List Access :=
  [.write .residuals [.single (.int (n + 1 : Nat))] (.real (f.residual n))] ++
    ((List.range (lags n)).flatMap (passAccesses f n) ++
      [.read .residualRows [.single (.int (n + 1 : Nat)), .span 1 order]
        (.row (tabulate order (f.entry n)))])

/-- In its round, an observation accesses what the arrays come to. -/
theorem roundAccesses_passed (order : Nat) (lags : Nat → Nat)
    (response weights start own : Nat → Rat) (blank : Rat) (k : Nat) :
    roundAccesses order lags
        ((Feedback.before order lags response weights start own blank k).passed lags response own k)
        k =
      roundAccesses order lags (Feedback.goal order lags response weights start own) k := by
  have residual (n : Nat) (upTo : n ≤ k) :
      ((Feedback.before order lags response weights start own blank k).passed lags response own
        k).residual n = (Feedback.goal order lags response weights start own).residual n := by
    rw [Feedback.residual_passed]
    exact if_pos (Nat.lt_succ_of_le upTo)
  have entry : ((Feedback.before order lags response weights start own blank k).passed lags response
      own k).entry k = (Feedback.goal order lags response weights start own).entry k := by
    rw [Feedback.entry_passed]
    exact funext fun i => if_pos (Nat.le_succ k)
  have passes : passAccesses ((Feedback.before order lags response weights start own blank k).passed
      lags response own k) k =
        passAccesses (Feedback.goal order lags response weights start own) k := by
    funext i
    rw [passAccesses, passAccesses, residual (k - i) (Nat.sub_le k i)]
  rw [roundAccesses, roundAccesses, residual k le_rfl, entry, passes]

section Statements

variable {s : Specification} {m : Matrices s} {draw : Draw} {order : Nat} {lags : Nat → Nat}
  {response weights : Nat → Rat} {values : Values} (blank : Rat) {counts : Counts}

/-- The residual of an observation is computed from its linear predictor. -/
theorem run_residualStatement (fed : Fed m draw order lags response weights values) {n : Nat}
    (inside : n < s.data.rows) (counted : counts .observation = some ((n + 1 : Nat) : Int))
    (f : Feedback) :
    residualStatement.run blank counts (f.stored s.data.rows order values) =
        some ((f.setResidual n (response n - f.predictor n)).stored s.data.rows order values) ∧
      (residualStatement.accesses blank counts (f.stored s.data.rows order values)).filter
          isFeedback =
        [.write .residuals [.single (.int (n + 1 : Nat))]
          (.real (response n - f.predictor n))] := by
  have observation : (Expr.counter .observation).Evaluates counts
      (f.stored s.data.rows order values) _ := .counter counted
  have outcome : (Expr.element .response Counter.observation).Evaluates counts
      (f.stored s.data.rows order values) (.real (response n)) :=
    .element ((f.stored_of_ne _ _ values (by simp) (by simp) (by simp)).trans fed.response)
      observation (Exact.select_vector inside)
  have predicted : (Expr.element .predictor Counter.observation).Evaluates counts
      (f.stored s.data.rows order values) (.real (f.predictor n)) :=
    .element (f.stored_predictor ..) observation (Exact.select_vector inside)
  have difference := Expr.Evaluates.sub outcome predicted rfl
  constructor
  · rw [residualStatement, Statement.run_assign difference,
      Statement.store_element (f.stored_residuals ..) observation (Exact.update_vector inside _),
      f.stored_setResidual]
  · rw [residualStatement, Statement.accesses, Statement.moves_eq difference, List.filter_append,
      filter_reads (by decide) (by decide), Expr.element, Expr.stores_subscript _ observation]
    rfl

/-- A residual is passed on to the next observation. -/
theorem run_passStatement {n i : Nat} (next : n + 1 < s.data.rows) (below : i < order)
    (within : i ≤ n) (counted : counts .observation = some ((n + 1 : Nat) : Int))
    (lagged : counts .place = some ((i + 1 : Nat) : Int)) (f : Feedback) (values : Values) :
    passStatement.run blank counts (f.stored s.data.rows order values) =
        some ((f.setEntry (n + 1) i (f.residual (n - i))).stored s.data.rows order values) ∧
      (passStatement.accesses blank counts (f.stored s.data.rows order values)).filter
        isFeedback = passAccesses f n i := by
  set now := f.stored s.data.rows order values
  have place : (Expr.counter .place).Evaluates counts now _ := .counter lagged
  have following : (Expr.counter .observation + .literal "1").Evaluates counts now
      (.int (n + 1 + 1 : Nat)) := .add (.counter counted) (.ofNat 1) rfl
  have back : (Expr.counter .observation + .literal "1" - .counter .place).Evaluates counts now
      (.int (n - i + 1 : Nat)) := by
    have difference :
        ((n + 1 + 1 : Nat) : Int) - ((i + 1 : Nat) : Int) = ((n - i + 1 : Nat) : Int) := by
      omega
    exact .sub following place (congrArg (some ∘ Exact.int) difference)
  have selected := Exact.select_vector (f := f.residual) (show n - i < s.data.rows by omega)
  have residual : (Expr.element .residuals
      (Expr.counter .observation + .literal "1" - .counter .place)).Evaluates counts now _ :=
    .element (f.stored_residuals ..) back selected
  have located := Expr.Evaluates.and following place
  constructor
  · rw [passStatement, Statement.run_assign residual,
      Statement.store_subscript (f.stored_residualRows ..) located
        (Exact.update_entry next below _), f.stored_setEntry]
  · rw [passStatement, Statement.accesses, Statement.moves_eq residual, List.filter_append,
      Expr.element, Expr.reads_subscript (f.stored_residuals ..) back selected,
      Expr.stores_subscript _ located, List.filter_append, List.filter_append,
      filter_reads (by decide) (by decide), filter_reads (by decide) (by decide)]
    rfl

/-- The residuals of an observation and of those before it are passed on to the next one. -/
theorem run_passes (fed : Fed m draw order lags response weights values) {n : Nat}
    (inside : n < s.data.rows) (bounded : ∀ i < lags n, i < order ∧ i ≤ n ∧ n + 1 < s.data.rows)
    (counted : counts .observation = some ((n + 1 : Nat) : Int)) (f : Feedback) :
    (Statement.forEach .place (Expr.element .lags Counter.observation) passStatement).run blank
        counts (f.stored s.data.rows order values) =
      some ((f.passing n (lags n)).stored s.data.rows order values) ∧
    ((Statement.forEach .place (Expr.element .lags Counter.observation) passStatement).accesses
        blank counts (f.stored s.data.rows order values)).filter isFeedback =
      (List.range (lags n)).flatMap (passAccesses f n) := by
  set now := f.stored s.data.rows order values
  have last : (Expr.element .lags Counter.observation).Evaluates counts now (.int (lags n)) :=
    .element ((f.stored_of_ne _ _ values (by simp) (by simp) (by simp)).trans fed.lags)
      (.counter counted) (Exact.select_ints inside)
  have start : (f.passing n 0).stored s.data.rows order values = now := by rw [f.passing_zero]
  have round (k : Nat) (below : k < lags n) := run_passStatement blank (bounded k below).2.2
    (bounded k below).1 (bounded k below).2.1
    (show Function.update counts .place (some ((k + 1 : Nat) : Int)) .observation = _ from counted)
    (Function.update_self ..) (f.passing n k) values
  have step (k : Nat) (below : k < lags n) := (round k below).1
  simp only [f.passing_setEntry] at step
  constructor
  · exact Statement.run_forEach last (fun k => (f.passing n k).stored s.data.rows order values)
      start step
  · rw [Statement.accesses_forEach last
      (fun k => (f.passing n k).stored s.data.rows order values) start step, List.filter_append,
      filter_reads (by decide) (by decide), List.nil_append, List.filter_flatMap]
    exact List.flatMap_congr fun k mem => (round k (List.mem_range.mp mem)).2

/-- What an observation looks back on is added to its linear predictor. -/
theorem run_feedStatement (fed : Fed m draw order lags response weights values) {n : Nat}
    (inside : n < s.data.rows) (counted : counts .observation = some ((n + 1 : Nat) : Int))
    (f : Feedback) :
    feedStatement.run blank counts (f.stored s.data.rows order values) =
        some ((f.setPredictor n (f.predictor n +
          ∑ i ∈ Finset.range order, f.entry n i * weights i)).stored s.data.rows order values) ∧
      (feedStatement.accesses blank counts (f.stored s.data.rows order values)).filter
          isFeedback =
        [.read .residualRows [.single (.int (n + 1 : Nat)), .span 1 order]
          (.row (tabulate order (f.entry n)))] := by
  set now := f.stored s.data.rows order values
  have observation : (Expr.counter .observation).Evaluates counts now _ := .counter counted
  have columns : (Expr.binary .upTo (.literal "1") Variable.order).meaning counts now =
      some [.span 1 order] := by
    have limit : (Expr.var .order).Evaluates counts now (.int order) :=
      .var ((f.stored_of_ne _ _ values (by simp) (by simp) (by simp)).trans fed.order)
    exact Expr.Evaluates.meaning_binary (Expr.Evaluates.ofNat 1) limit
  have located := Expr.Evaluates.and observation columns
  have selected : Exact.select (.matrix (tabulate s.data.rows fun n => tabulate order (f.entry n)))
      [.single (.int (n + 1 : Nat)), .span 1 order] = some (.row (tabulate order (f.entry n))) :=
    Exact.select_row inside
  have weights : (Expr.var .feedback).Evaluates counts now (.vector (tabulate order weights)) :=
    .var ((f.stored_of_ne _ _ values (by simp) (by simp) (by simp)).trans fed.weights)
  have product := Expr.Evaluates.mul (.subscript (.var (f.stored_residualRows ..)) located selected)
    weights (Exact.times_row _ _)
  have own : (Expr.element .predictor Counter.observation).Evaluates counts now
      (.real (f.predictor n)) :=
    .element (f.stored_predictor ..) observation (Exact.select_vector inside)
  have sum := Expr.Evaluates.add own product rfl
  constructor
  · rw [feedStatement, Statement.run_add sum, Statement.store_element (f.stored_predictor ..)
      observation (Exact.update_vector inside _), f.stored_setPredictor]
  · have read : (Expr.element .predictor Counter.observation +
        .subscript Variable.residualRows ((Expr.counter .observation).and
          (.binary .upTo (.literal "1") Variable.order)) * Expr.var .feedback).reads counts now =
        (Expr.element .predictor Counter.observation).reads counts now ++
          ((Expr.subscript Variable.residualRows ((Expr.counter .observation).and
            (.binary .upTo (.literal "1") Variable.order))).reads counts now ++
            (Expr.var .feedback).reads counts now) := rfl
    rw [feedStatement, Statement.accesses, Statement.moves_eq sum, read,
      Expr.reads_subscript (f.stored_residualRows ..) located selected, Expr.element,
      Expr.stores_subscript _ observation]
    simp only [List.filter_append]
    rw [filter_reads (by decide) (by decide), filter_reads (by decide) (by decide),
      filter_reads (by decide) (by decide), filter_reads (by decide) (by decide)]
    rfl

/-- What was prepared does not depend on the predictor and the residuals. -/
theorem Prepared.of_agree (prepared : Prepared m draw values) {after : Values}
    (same : ∀ v, v ≠ .predictor → v ≠ .residuals → v ≠ .residualRows → after v = values v) :
    Prepared m draw after where
  toHolds := prepared.toHolds.of_agree fun v input =>
    same v (by rintro rfl; exact input) (by rintro rfl; exact input) (by rintro rfl; exact input)
  centered yes := (same _ (by simp) (by simp) (by simp)).trans (prepared.centered yes)
  means yes := (same _ (by simp) (by simp) (by simp)).trans (prepared.means yes)
  singles single mem := (same _ (by simp [singleVariable]) (by simp [singleVariable])
    (by simp [singleVariable])).trans (prepared.singles single mem)

/-- Additions that do not use the residuals do not access them. -/
theorem filter_additions {statements : List Statement} {counts : Counts} {values : Values}
    (each : ∀ statement ∈ statements, ∃ target e, statement = .add target e ∧
      .residuals ∉ target.uses ++ e.uses ∧ .residualRows ∉ target.uses ++ e.uses) :
    ((Statement.ofList statements).accesses blank counts values).filter isFeedback = [] := by
  refine List.filter_eq_nil_iff.mpr fun access mem => ?_
  obtain ⟨statement, listed, now, found⟩ := Statement.exists_of_mem_accesses mem
  obtain ⟨target, e, rfl, first, second⟩ := each statement listed
  have none : ((Statement.add target e).accesses blank counts now).filter isFeedback = [] :=
    filter_isFeedback (fun _ mem => Statement.target_of_mem_accesses_add mem) first second
  exact List.filter_eq_nil_iff.mp none access found

/-- The statements that add single coefficients do not access the residuals. -/
theorem filter_singleSummands {items : List (Group × Nat)} {counts : Counts} {values : Values} :
    ((Statement.ofList (items.map singleSummand)).accesses blank counts values).filter
      isFeedback = [] := by
  refine filter_additions blank fun statement mem => ?_
  obtain ⟨single, _, rfl⟩ := List.mem_map.mp mem
  exact ⟨_, _, rfl, by simp [Expr.element, Expr.uses, singleVariable],
    by simp [Expr.element, Expr.uses, singleVariable]⟩

/-- What the single coefficients contribute to an observation. -/
def contributions (m : Matrices s) (draw : Draw) (n : Nat) : Rat :=
  ((singles s).map (m.contribution draw n)).sum

/-- The single coefficients are added to the linear predictor of an observation. -/
theorem run_singleSummands_stored (given : m.IsGiven) (prepared : Prepared m draw values) {n : Nat}
    (inside : n < s.data.rows) (counted : counts .observation = some ((n + 1 : Nat) : Int))
    (f : Feedback) :
    (Statement.ofList ((singles s).map singleSummand)).run blank counts
        (f.stored s.data.rows order values) =
      some ((f.setPredictor n (f.predictor n + contributions m draw n)).stored
        s.data.rows order values) := by
  have present : Prepared m draw (f.stored s.data.rows order values) :=
    prepared.of_agree fun v first second third => f.stored_of_ne _ _ _ first second third
  have same : Function.update (f.stored s.data.rows order values) .predictor
      (some (.vector (tabulate s.data.rows f.predictor))) = f.stored s.data.rows order values := by
    rw [← f.stored_predictor s.data.rows order values, Function.update_eq_self]
  have added :=
    run_singleSummands blank counts given present (fun _ => id) inside counted f.predictor
  rw [same] at added
  rw [added, f.stored_setPredictor]
  rfl

/-- The round of an observation. -/
theorem run_round (given : m.IsGiven) (fed : Fed m draw order lags response weights values)
    {n : Nat} (inside : n < s.data.rows)
    (bounded : ∀ i < lags n, i < order ∧ i ≤ n ∧ n + 1 < s.data.rows)
    (counted : counts .observation = some ((n + 1 : Nat) : Int)) (f : Feedback) :
    (Statement.ofList ((singles s).map singleSummand ++ feedbackStatements)).run blank counts
        (f.stored s.data.rows order values) =
      some ((f.round order lags response weights (contributions m draw) n).stored
        s.data.rows order values) ∧
    ((Statement.ofList ((singles s).map singleSummand ++ feedbackStatements)).accesses blank counts
        (f.stored s.data.rows order values)).filter isFeedback =
      roundAccesses order lags (f.passed lags response (contributions m draw) n) n := by
  have first := @run_singleSummands_stored s m draw order values blank counts given fed.toPrepared
    n inside counted f
  set own := f.setPredictor n (f.predictor n + contributions m draw n)
  have second := run_residualStatement blank fed inside counted own
  set left := own.setResidual n (response n - own.predictor n) with made
  have third := run_passes blank fed inside bounded counted left
  have fourth := run_feedStatement blank fed inside counted (left.passing n (lags n))
  constructor
  · rw [Statement.run_ofList_append, first, Option.bind_some, feedbackStatements_eq,
      Statement.run_ofList_cons, second.1, Option.bind_some, Statement.run_ofList_cons, third.1,
      Option.bind_some, Statement.run_ofList_singleton, fourth.1]
    rfl
  · have residual : left.residual n = response n - own.predictor n := Function.update_self ..
    rw [Statement.accesses_ofList_append first, feedbackStatements_eq,
      Statement.accesses_ofList_cons second.1, Statement.accesses_ofList_cons third.1,
      Statement.accesses_ofList_singleton, List.filter_append, List.filter_append,
      List.filter_append, filter_singleSummands, second.2, third.2, fourth.2, ← residual]
    rfl

/-- The loop over the observations takes the arrays from the first round to behind the last one. -/
theorem run_observationLoop_feedback (given : m.IsGiven)
    (fed : Fed m draw order lags response weights values)
    (bounded : ∀ n < s.data.rows, ∀ i < lags n, i < order ∧ i ≤ n ∧ n + 1 < s.data.rows)
    (structured : s.autocorrelation.isSome = true) (start : Nat → Rat) :
    (Statement.ofList (observationLoop s)).run blank counts
        ((Feedback.before order lags response weights start (contributions m draw) blank 0).stored
          s.data.rows order values) =
      some ((Feedback.before order lags response weights start (contributions m draw) blank
        s.data.rows).stored s.data.rows order values) ∧
    ((Statement.ofList (observationLoop s)).accesses blank counts
        ((Feedback.before order lags response weights start (contributions m draw) blank 0).stored
          s.data.rows order values)).filter isFeedback =
      (List.range s.data.rows).flatMap (roundAccesses order lags
        (Feedback.goal order lags response weights start (contributions m draw))) := by
  have body : observationStatements s = (singles s).map singleSummand ++ feedbackStatements := by
    rw [observationStatements, if_pos structured, singles, List.map_flatMap]
    simp only [List.map_map]
    rfl
  have loop : observationLoop s = [.forEach .observation Variable.observations
      (.ofList ((singles s).map singleSummand ++ feedbackStatements))] := by
    rw [observationLoop, body]
    split
    · rename_i none
      simp [feedbackStatements] at none
    · rfl
  let after (k : Nat) : Values :=
    (Feedback.before order lags response weights start (contributions m draw) blank k).stored
      s.data.rows order values
  have rows : (Expr.var .observations).Evaluates counts (after 0) _ :=
    .var ((Feedback.stored_of_ne _ _ _ values (by simp) (by simp) (by simp)).trans
      fed.observations)
  have round (k : Nat) (inside : k < s.data.rows) := run_round blank given fed inside
    (bounded k inside)
    (show Function.update counts .observation (some ((k + 1 : Nat) : Int)) .observation = _ from
      Function.update_self ..)
    (Feedback.before order lags response weights start (contributions m draw) blank k)
  have step (k : Nat) (inside : k < s.data.rows) := (round k inside).1
  simp only [Feedback.round_before] at step
  rw [loop]
  constructor
  · rw [Statement.run_ofList_singleton]
    exact Statement.run_forEach rows after rfl step
  · rw [Statement.accesses_ofList_singleton, Statement.accesses_forEach rows after rfl step,
      List.filter_append, filter_reads (by decide) (by decide), List.nil_append,
      List.filter_flatMap]
    refine List.flatMap_congr fun k mem => (round k (List.mem_range.mp mem)).2.trans ?_
    exact roundAccesses_passed order lags response weights start (contributions m draw) blank k

/-- The declarations of the linear predictor and of the residuals make their arrays. -/
theorem run_declarations (fed : Fed m draw order lags response weights values) :
    (Statement.ofList declarations).run blank counts values =
      some ((⟨fun _ => 0, fun _ => blank, fun _ _ => 0⟩ : Feedback).stored
        s.data.rows order values) ∧
    ((Statement.ofList declarations).accesses blank counts values).filter isFeedback =
      [.write .residualRows []
        (.matrix (tabulate s.data.rows fun _ => tabulate order fun _ => 0))] := by
  have rows : (Expr.var .observations).Evaluates counts values _ := .var fed.observations
  have zeros : (Expr.call "rep_vector"
      ((Expr.literal "0.0").and Variable.observations)).Evaluates counts values _ :=
    .call (Expr.Evaluates.and Expr.Evaluates.zero rows) (Exact.apply_repeat _ _)
  have first : predictorDeclaration.run blank counts values = some _ :=
    Statement.run_declare_value (VariableType.filled_vector rows) zeros (Exact.keep_vector _ _)
  set one := Function.update values .predictor _ with made
  have rows : (Expr.var .observations).Evaluates counts one (.int s.data.rows) :=
    .var ((Function.update_of_ne (by simp) ..).trans fed.observations)
  have limit : (Expr.var .order).Evaluates counts one (.int order) :=
    .var ((Function.update_of_ne (by simp) ..).trans fed.order)
  have nothing : (Expr.call "rep_matrix" ((Expr.literal "0").list
      [Variable.observations, Variable.order])).Evaluates counts one _ :=
    .call (Expr.Evaluates.list (Expr.Evaluates.ofNat 0) (.cons rows (.cons limit .nil)))
      (Exact.apply_zeros _ _)
  have second : rowsDeclaration.run blank counts one = some _ :=
    Statement.run_declare_value (VariableType.filled_matrix rows limit) nothing
      (Exact.keep_matrix _ _)
  set two := Function.update one .residualRows _ with made'
  have rows : (Expr.var .observations).Evaluates counts two (.int s.data.rows) :=
    .var ((Function.update_of_ne (by simp) ..).trans
      ((Function.update_of_ne (by simp) ..).trans fed.observations))
  have third : residualsDeclaration.run blank counts two = some _ :=
    Statement.run_declare (VariableType.filled_vector rows)
  constructor
  · rw [declarations, Statement.run_ofList_cons, first, Option.bind_some,
      Statement.run_ofList_cons, second, Option.bind_some, Statement.run_ofList_singleton, third,
      made', made, Feedback.stored,
      Function.update_comm (show Variable.predictor ≠ .residualRows by simp),
      Function.update_comm (show Variable.predictor ≠ .residuals by simp)]
  · have size : ((Expr.var .observations).reads counts two).filter isFeedback = [] :=
      filter_reads (by decide) (by decide)
    have moved : (Statement.moves counts values Variable.predictor (.call "rep_vector"
        ((Expr.literal "0.0").and Variable.observations))).filter isFeedback = [] :=
      filter_isFeedback (fun _ mem => Statement.target_of_mem_moves mem) (by decide) (by decide)
    rw [declarations, Statement.accesses_ofList_cons first, Statement.accesses_ofList_cons second,
      Statement.accesses_ofList_singleton]
    simp only [predictorDeclaration, rowsDeclaration, residualsDeclaration, Statement.accesses,
      VariableType.reads, List.filter_append, moved, size]
    rw [Statement.moves_eq nothing]
    simp only [List.filter_append]
    rw [filter_reads (by decide) (by decide), filter_reads (by decide) (by decide),
      filter_reads (by decide) (by decide), filter_reads (by decide) (by decide)]
    rfl

/-- The shared summands do not use the residuals. -/
theorem filter_sharedStatements {values : Values} :
    ((Statement.ofList (sharedStatements s)).accesses blank counts values).filter isFeedback =
      [] := by
  have product : ∀ e ∈ designSummands s, .residuals ∉ e.uses ∧ .residualRows ∉ e.uses := by
    unfold designSummands
    split
    · exact fun e mem => List.mem_singleton.mp mem ▸ ⟨by decide, by decide⟩
    split
    · exact fun e mem => List.mem_singleton.mp mem ▸ ⟨by decide, by decide⟩
    split
    · exact fun e mem => List.mem_singleton.mp mem ▸ ⟨by decide, by decide⟩
    · simp
  have each : ∀ e ∈ sharedSummands s, .residuals ∉ e.uses ∧ .residualRows ∉ e.uses := by
    intro e mem
    rcases List.mem_append.mp mem with shifted | other
    · split at shifted
      · exact List.mem_singleton.mp shifted ▸ ⟨by decide, by decide⟩
      · cases shifted
    · exact product e other
  -- A sum uses what its summands use.
  have sum (rest : List Expr) : ∀ first : Expr,
      (∀ e ∈ first :: rest, .residuals ∉ e.uses ∧ .residualRows ∉ e.uses) →
        .residuals ∉ (rest.foldl (· + ·) first).uses ∧
          .residualRows ∉ (rest.foldl (· + ·) first).uses := by
    induction rest with
    | nil => exact fun first known => known first List.mem_cons_self
    | cons second rest ih =>
      intro first known
      refine ih (first + second) fun e mem => ?_
      rcases List.mem_cons.mp mem with rfl | later
      · have left := known first List.mem_cons_self
        have right := known second (List.mem_cons_of_mem _ List.mem_cons_self)
        have uses : (first + second).uses = first.uses ++ second.uses := rfl
        simp only [uses, List.mem_append]
        tauto
      · exact known e (List.mem_cons_of_mem _ (List.mem_cons_of_mem _ later))
  unfold sharedStatements
  cases summands : sharedSummands s with
  | nil => rfl
  | cons first rest =>
    rw [summands] at each
    have known := sum rest first each
    refine filter_additions blank fun statement mem => ?_
    obtain rfl := List.mem_singleton.mp mem
    exact ⟨_, _, rfl, by simpa [Expr.uses] using known.1, by simpa [Expr.uses] using known.2⟩

/-- With residuals, the statements of the linear predictor compute the arrays that the numbers of
lags lead to, and these are all their accesses to the residuals. -/
theorem run_predictorStatements_feedback (given : m.IsGiven)
    (fed : Fed m draw order lags response weights values)
    (bounded : ∀ n < s.data.rows, ∀ i < lags n, i < order ∧ i ≤ n ∧ n + 1 < s.data.rows)
    (structured : s.autocorrelation.isSome = true) :
    (Statement.ofList (predictorStatements s)).run blank counts values =
      some ((Feedback.goal order lags response weights (m.shared draw)
        (contributions m draw)).stored s.data.rows order values) ∧
    ((Statement.ofList (predictorStatements s)).accesses blank counts values).filter isFeedback =
      .write .residualRows []
          (.matrix (tabulate s.data.rows fun _ => tabulate order fun _ => 0)) ::
        (List.range s.data.rows).flatMap (roundAccesses order lags
          (Feedback.goal order lags response weights (m.shared draw) (contributions m draw))) := by
  have first := @run_declarations s m draw order lags response weights values blank counts fed
  set declared : Feedback := ⟨fun _ => 0, fun _ => blank, fun _ _ => 0⟩
  have present : Prepared m draw (declared.stored s.data.rows order values) :=
    fed.toPrepared.of_agree fun v one two three => declared.stored_of_ne _ _ _ one two three
  have second : (Statement.ofList (sharedStatements s)).run blank counts
      (declared.stored s.data.rows order values) =
        some ((Feedback.before order lags response weights (m.shared draw) (contributions m draw)
          blank 0).stored s.data.rows order values) := by
    have added := run_sharedStatements blank counts given present
    have same : Function.update (declared.stored s.data.rows order values) .predictor
        (some (.vector (tabulate s.data.rows fun _ => 0))) =
          declared.stored s.data.rows order values := by
      rw [Feedback.stored, Function.update_idem]
    rw [same] at added
    rw [added, Feedback.before_zero, Feedback.stored, Function.update_idem]
    rfl
  have third := @run_observationLoop_feedback s m draw order lags response weights values blank
    counts given fed bounded structured (m.shared draw)
  set start := (Feedback.before order lags response weights (m.shared draw) (contributions m draw)
    blank 0).stored s.data.rows order values
  have both : (Statement.ofList (declarations ++ sharedStatements s)).run blank counts values =
      some start := by
    rw [Statement.run_ofList_append, first.1, Option.bind_some, second]
  rw [predictorStatements_eq structured]
  constructor
  · rw [Statement.run_ofList_append, both, Option.bind_some, third.1, Feedback.stored_before]
  · rw [Statement.accesses_ofList_append both, Statement.accesses_ofList_append first.1,
      List.filter_append, List.filter_append, first.2, filter_sharedStatements, third.2]
    rfl

end Statements

end Program

end Multilevel
