import Mathlib
import Multilevel.Proofs.Program.Predictor

/-!
# Feedback of residuals

The arrays that residuals are fed back with. A round of the loop over the observations takes what
they hold at its start to what they hold at the start of the next one (`Feedback.round_before`).
-/
namespace Multilevel

open Exact (tabulate)

/-- The arrays that the loop over the observations works on, with observations and lags counted from
zero. -/
structure Feedback where
  /-- The linear predictor. -/
  predictor : Nat → Rat
  /-- The residuals. -/
  residual : Nat → Rat
  /-- For each observation, the residuals that it looks back on. -/
  entry : Nat → Nat → Rat

namespace Feedback

/-- The values of a program with these arrays. -/
def stored (f : Feedback) (rows order : Nat) (values : Values) : Values :=
  Function.update
    (Function.update
      (Function.update values .residualRows
        (some (.matrix (tabulate rows fun n => tabulate order (f.entry n)))))
      .residuals (some (.vector (tabulate rows f.residual))))
    .predictor (some (.vector (tabulate rows f.predictor)))

variable (f : Feedback) (rows order : Nat) (values : Values)

@[simp]
theorem stored_predictor :
    f.stored rows order values .predictor = some (.vector (tabulate rows f.predictor)) :=
  Function.update_self ..

@[simp]
theorem stored_residuals :
    f.stored rows order values .residuals = some (.vector (tabulate rows f.residual)) := by
  simp [stored]

@[simp]
theorem stored_residualRows : f.stored rows order values .residualRows =
    some (.matrix (tabulate rows fun n => tabulate order (f.entry n))) := by
  simp [stored]

/-- Other variables are left alone. -/
theorem stored_of_ne {v : Variable} (first : v ≠ .predictor) (second : v ≠ .residuals)
    (third : v ≠ .residualRows) : f.stored rows order values v = values v := by
  rw [stored, Function.update_of_ne first, Function.update_of_ne second,
    Function.update_of_ne third]

/-- The arrays with another linear predictor of an observation. -/
def setPredictor (n : Nat) (x : Rat) : Feedback :=
  { f with predictor := Function.update f.predictor n x }

/-- The arrays with another residual of an observation. -/
def setResidual (n : Nat) (x : Rat) : Feedback :=
  { f with residual := Function.update f.residual n x }

/-- The arrays with another residual that an observation looks back on. -/
def setEntry (n i : Nat) (x : Rat) : Feedback :=
  { f with entry := Function.update f.entry n (Function.update (f.entry n) i x) }

/-- The arrays when an observation has passed some residuals on to the next one. -/
def passing (n count : Nat) : Feedback :=
  { f with entry := fun m i => if m = n + 1 ∧ i < count then f.residual (n - i) else f.entry m i }

theorem passing_zero (n : Nat) : f.passing n 0 = f := by
  simp [passing]

/-- One residual more is passed on. -/
theorem passing_setEntry (n count : Nat) :
    (f.passing n count).setEntry (n + 1) count ((f.passing n count).residual (n - count)) =
      f.passing n (count + 1) := by
  rw [setEntry, passing, passing, mk.injEq]
  refine ⟨rfl, rfl, funext fun m => funext fun i => ?_⟩
  dsimp only
  by_cases next : m = n + 1
  · subst next
    rw [Function.update_self]
    by_cases last : i = count
    · subst last
      simp
    · have earlier : i < count + 1 ↔ i < count := by omega
      rw [Function.update_of_ne last]
      simp only [earlier]
  · rw [Function.update_of_ne next]
    simp [next]

theorem stored_setPredictor (n : Nat) (x : Rat) :
    (f.setPredictor n x).stored rows order values =
      Function.update (f.stored rows order values) .predictor
        (some (.vector (tabulate rows (Function.update f.predictor n x)))) := by
  rw [stored, stored, Function.update_idem]
  rfl

theorem stored_setResidual (n : Nat) (x : Rat) :
    (f.setResidual n x).stored rows order values =
      Function.update (f.stored rows order values) .residuals
        (some (.vector (tabulate rows (Function.update f.residual n x)))) := by
  rw [stored, stored, Function.update_comm (show Variable.predictor ≠ .residuals by simp),
    Function.update_idem]
  rfl

theorem stored_setEntry (n i : Nat) (x : Rat) :
    (f.setEntry n i x).stored rows order values =
      Function.update (f.stored rows order values) .residualRows
        (some (.matrix (tabulate rows fun k => tabulate order
          (Function.update f.entry n (Function.update (f.entry n) i x) k)))) := by
  rw [stored, stored, Function.update_comm (show Variable.predictor ≠ .residualRows by simp),
    Function.update_comm (show Variable.residuals ≠ .residualRows by simp), Function.update_idem]
  rfl

/-- The arrays when an observation has its own coefficients, its residual and what it passes on. -/
def passed (lags : Nat → Nat) (response own : Nat → Rat) (n : Nat) : Feedback :=
  let predicted := f.setPredictor n (f.predictor n + own n)
  (predicted.setResidual n (response n - predicted.predictor n)).passing n (lags n)

/-- The arrays when the round of an observation is over. -/
def round (order : Nat) (lags : Nat → Nat) (response weights own : Nat → Rat) (n : Nat) :
    Feedback :=
  let passed := f.passed lags response own n
  passed.setPredictor n
    (passed.predictor n + ∑ i ∈ Finset.range order, passed.entry n i * weights i)

/-- What the arrays come to: residuals are taken from the linear predictor without feedback, an
observation looks back on as many of them as the one before it passes on. -/
def ofLags (order : Nat) (lags : Nat → Nat) (response weights base : Nat → Rat) : Feedback :=
  let residual (n : Nat) : Rat := response n - base n
  let entry (n i : Nat) : Rat :=
    match n with
    | 0 => 0
    | before + 1 => if i < lags before then residual (before - i) else 0
  ⟨fun n => base n + ∑ i ∈ Finset.range order, entry n i * weights i, residual, entry⟩

/-- The arrays after some rounds, given the linear predictor at the start and what is not assigned
yet. -/
def upTo (goal : Feedback) (start : Nat → Rat) (blank : Rat) (k : Nat) : Feedback where
  predictor n := if n < k then goal.predictor n else start n
  residual n := if n < k then goal.residual n else blank
  entry n i := if n ≤ k then goal.entry n i else 0

section Rounds

variable (order : Nat) (lags : Nat → Nat) (response weights start own : Nat → Rat) (blank : Rat)
  (k : Nat)

/-- What the arrays come to, if the coefficients of each observation are added to a start. -/
def goal : Feedback := ofLags order lags response weights fun n => start n + own n

/-- The arrays at the start of a round. -/
def before : Feedback := (goal order lags response weights start own).upTo start blank k

/-- In its round, an observation starts without feedback. -/
theorem predictor_before :
    (before order lags response weights start own blank k).predictor k = start k :=
  if_neg (Nat.lt_irrefl k)

/-- In its round, the residual of an observation is computed. -/
theorem residual_passed :
    ((before order lags response weights start own blank k).passed lags response own k).residual =
      fun n => if n < k + 1 then (goal order lags response weights start own).residual n
        else blank := by
  set f := before order lags response weights start own blank k with made
  show Function.update f.residual k
    (response k - Function.update f.predictor k (f.predictor k + own k) k) = _
  rw [Function.update_self, made, predictor_before]
  exact Exact.update_below (goal order lags response weights start own).residual
    (fun _ => blank) k

/-- In its round, an observation passes on what the next one looks back on. -/
theorem entry_passed :
    ((before order lags response weights start own blank k).passed lags response own k).entry =
      fun n i => if n ≤ k + 1 then (goal order lags response weights start own).entry n i
        else 0 := by
  have residuals := residual_passed order lags response weights start own blank k
  funext n i
  show (if n = k + 1 ∧ i < lags k then
      ((before order lags response weights start own blank k).passed lags response own k).residual
        (k - i)
    else (before order lags response weights start own blank k).entry n i) = _
  rw [residuals]
  by_cases next : n = k + 1
  · subst next
    have inside : k - i < k + 1 := by omega
    have beyond : ¬k + 1 ≤ k := by omega
    simp only [true_and, le_refl, if_true, if_pos inside, before, upTo, if_neg beyond, goal, ofLags]
  · have same : n ≤ k + 1 ↔ n ≤ k := by omega
    simp only [next, false_and, if_false, same]
    rfl

/-- A round leads to the start of the next one. -/
theorem round_before :
    (before order lags response weights start own blank k).round order lags response weights own k =
      before order lags response weights start own blank (k + 1) := by
  have entries := entry_passed order lags response weights start own blank k
  have residuals := residual_passed order lags response weights start own blank k
  set f := before order lags response weights start own blank k with made
  have predicted : (f.passed lags response own k).predictor =
      Function.update f.predictor k (start k + own k) := by
    show Function.update f.predictor k (f.predictor k + own k) = _
    rw [made, predictor_before]
  have predictors : Function.update (f.passed lags response own k).predictor k
      ((f.passed lags response own k).predictor k +
        ∑ i ∈ Finset.range order, (f.passed lags response own k).entry k i * weights i) =
      (before order lags response weights start own blank (k + 1)).predictor := by
    rw [predicted, Function.update_idem, Function.update_self, entries]
    simp only [Nat.le_succ, if_true]
    exact Exact.update_below (goal order lags response weights start own).predictor start k
  rw [round, setPredictor, predictors, entries, residuals]
  rfl

/-- At the start of the first round, no observation looks back. -/
theorem before_zero :
    before order lags response weights start own blank 0 =
      ⟨start, fun _ => blank, fun _ _ => 0⟩ := by
  have entries : (fun n i => if n ≤ 0 then (goal order lags response weights start own).entry n i
      else 0) = fun _ _ => (0 : Rat) := by
    funext n i
    cases n with
    | zero => rfl
    | succ n => exact if_neg (by omega)
  rw [before, upTo, entries]
  simp only [Nat.not_lt_zero, if_false]

/-- Behind the last round, the arrays are what they come to. -/
theorem stored_before (rows : Nat) (values : Values) :
    (before order lags response weights start own blank rows).stored rows order values =
      (goal order lags response weights start own).stored rows order values := by
  set f := before order lags response weights start own blank rows
  set g := goal order lags response weights start own
  have predictors : tabulate rows f.predictor = tabulate rows g.predictor :=
    Exact.tabulate_congr fun n inside => if_pos inside
  have residuals : tabulate rows f.residual = tabulate rows g.residual :=
    Exact.tabulate_congr fun n inside => if_pos inside
  have entries : (tabulate rows fun n => tabulate order (f.entry n)) =
      tabulate rows fun n => tabulate order (g.entry n) :=
    Exact.tabulate_congr fun n inside =>
      Exact.tabulate_congr fun i _ => if_pos (Nat.le_of_lt inside)
  rw [stored, stored, predictors, residuals, entries]

end Rounds

end Feedback

end Multilevel
