import Multilevel.Proofs.Outcome
import Multilevel.Run.Options

/-!
# Options over a session

Options are set, asked for, started anew from an environment and kept in snapshots, in any order and
with any values. Each option always has the value that the last call gave it that took effect on it
(`OptionCall.last_call_holds`); a call that fails changes nothing. A value that is refused is refused
by an error of the configuration, with two exceptions: an infinite number is no number of cores and
is refused as too large, and an integer that is too long to be shown is refused without an error that
shows it (`RunOptions.IsRefusedPlainly`).
-/
namespace Multilevel

namespace RunOptions

/-- Whether a value for an option is refused with a plain fault, not with an error of the
configuration. -/
inductive IsRefusedPlainly : String → Value → Fault → Prop
  /-- An infinite number of cores. -/
  | infinite {x : Float} (infinite : Number.isFinite x = false) (number : x.isNaN = false) :
      IsRefusedPlainly "cores" (.float x) .overflow
  /-- A number of cores below one that has too many digits. -/
  | below {value : Value} {n : Int} (whole : wholeOf value = .ok n) (below : n < 1)
      (long : Number.isWritable n = false) : IsRefusedPlainly "cores" value .unconvertible
  /-- A list or a record for the number of cores that holds an integer with too many digits. -/
  | cores {value : Value} (compound : value.isCompound = true)
      (long : value.isDisplayable = false) : IsRefusedPlainly "cores" value .unconvertible
  /-- A choice about futures that is or holds an integer with too many digits. -/
  | future {value : Value} (long : value.isDisplayable = false) :
      IsRefusedPlainly "future" value .unconvertible

/-- Whether a computation is refused, with an error of the configuration or plainly. -/
inductive Refuses {α : Type} (plain : Fault → Prop) : Except Failure α → Prop
  | configuration (e : ConfigurationError) : Refuses plain (.error (.configuration e))
  | plain {fault : Fault} (own : plain fault) : Refuses plain (.error (.fault fault))

variable {α β : Type} {plain : Fault → Prop} {value : Value}

/-- What comes after a refused computation is refused. -/
theorem Refuses.bind {x : Except Failure α} (refused : Refuses plain x)
    (f : α → Except Failure β) : Refuses plain (x >>= f) := by
  cases refused with
  | configuration e => exact .configuration e
  | plain own => exact .plain own

/-- What is made of a refused computation is refused. -/
theorem Refuses.map {x : Except Failure α} (refused : Refuses plain x) (f : α → β) :
    Refuses plain (x.map f) := by
  cases refused with
  | configuration e => exact .configuration e
  | plain own => exact .plain own

/-- A value that is to be shown is refused plainly only if it has no displayed form. -/
theorem refuses_refuseShown {error : String → ConfigurationError}
    (own : value.isDisplayable = false → plain .unconvertible) :
    Refuses plain (refuseShown value error : Except Failure α) := by
  unfold refuseShown
  split
  · exact .configuration _
  · rename_i long
    exact .plain (own (Bool.eq_false_iff.mpr long))

/-- A value counts as an integer, or is refused. -/
theorem wholeOf_cases (value : Value) :
    (∃ n, wholeOf value = .ok n) ∨ Refuses (IsRefusedPlainly "cores" value) (wholeOf value) := by
  cases value with
  | int n => exact .inl ⟨n, rfl⟩
  | bool b => exact .inl ⟨_, rfl⟩
  | float x =>
    unfold wholeOf
    dsimp only
    split
    · exact .inl ⟨_, rfl⟩
    · rename_i infinite
      refine .inr ?_
      split
      · exact refuses_refuseShown fun long => by cases long
      · rename_i number
        exact .plain (.infinite (Bool.eq_false_iff.mpr infinite) (Bool.eq_false_iff.mpr number))
  | text s =>
    unfold wholeOf
    dsimp only
    cases Number.int? s with
    | some n => exact .inl ⟨n, rfl⟩
    | none => exact .inr (refuses_refuseShown fun long => by cases long)
  | null => exact .inr (refuses_refuseShown fun long => by cases long)
  | function => exact .inr (refuses_refuseShown fun long => by cases long)
  | list items => exact .inr (refuses_refuseShown fun long => .cores rfl long)
  | record fields => exact .inr (refuses_refuseShown fun long => .cores rfl long)

/-- A value is a number of cores, or is refused. -/
theorem coresOf_cases (value : Value) :
    (∃ n, coresOf value = .ok n) ∨ Refuses (IsRefusedPlainly "cores" value) (coresOf value) := by
  unfold coresOf
  rcases wholeOf_cases value with ⟨n, whole⟩ | refused
  · rw [whole]
    by_cases positive : 1 ≤ n
    · exact .inl ⟨⟨n, positive⟩, dif_pos positive⟩
    · refine .inr ?_
      have last : (Except.ok n >>= fun n : Int => if h : 1 ≤ n then pure ⟨n, h⟩
          else refuseShown (.int n) (.atLeastOne "cores") : Except Failure { n : Int // 1 ≤ n }) =
            refuseShown (.int n) (.atLeastOne "cores") := dif_neg positive
      rw [last]
      exact refuses_refuseShown fun long => .below whole (Int.not_le.mp positive) long
  · exact .inr (refused.bind _)

/-- A value is a choice about futures, or is refused. -/
theorem futureOf_cases (value : Value) :
    (∃ b, futureOf value = .ok b) ∨ Refuses (IsRefusedPlainly "future" value) (futureOf value) := by
  unfold futureOf
  split
  · exact .inl ⟨_, rfl⟩
  · dsimp only
    split
    · exact .inl ⟨_, rfl⟩
    · split
      · exact .inl ⟨_, rfl⟩
      · exact .inr (refuses_refuseShown .future)
  · exact .inr (refuses_refuseShown .future)

/-- A value without a displayed form is refused plainly where it is to be shown. -/
theorem refuseShown_of_long {error : String → ConfigurationError}
    (long : value.isDisplayable = false) :
    (refuseShown value error : Except Failure α) = .error (.fault .unconvertible) := by
  unfold refuseShown
  rw [long]
  rfl

/-- Setting the number of cores. -/
theorem set_cores (options : RunOptions) (value : Value) :
    options.set "cores" value = (coresOf value).map options.withCores := by
  change (coresOf value >>= fun n => pure (options.withCores n)) = _
  cases coresOf value <;> rfl

/-- Setting the choice about futures. -/
theorem set_future (options : RunOptions) (value : Value) :
    options.set "future" value = (futureOf value).map fun future => { options with future } := by
  change (futureOf value >>= fun future => pure { options with future }) = _
  cases futureOf value <;> rfl

/-- There are no other options to set. -/
theorem set_unknown (options : RunOptions) {name : String} (value : Value)
    (not_cores : name ≠ "cores") (not_future : name ≠ "future") :
    options.set name value = .error (.configuration (.setUnknown name)) := by
  have unknown : Name.ofText? name = none := by
    unfold Name.ofText?
    split <;> simp_all
  unfold RunOptions.set
  rw [unknown]
  rfl

/-- A value that is refused plainly for an option is refused with its fault. -/
theorem IsRefusedPlainly.set_eq {name : String} {fault : Fault}
    (refused : IsRefusedPlainly name value fault) (options : RunOptions) :
    options.set name value = .error (.fault fault) := by
  have cores {fault : Fault} (failed : coresOf value = .error (.fault fault)) :
      options.set "cores" value = .error (.fault fault) := by
    rw [set_cores, failed]
    rfl
  cases refused with
  | @infinite x infinite number =>
    refine cores ?_
    unfold coresOf wholeOf
    dsimp only
    rw [infinite, number]
    rfl
  | @below _ n whole below long =>
    refine cores ?_
    unfold coresOf
    rw [whole]
    exact (dif_neg (Int.not_le.mpr below)).trans (refuseShown_of_long long)
  | cores compound long =>
    refine cores ?_
    have whole : wholeOf value = .error (.fault .unconvertible) := by
      cases value with
      | list | record => exact refuseShown_of_long long
      | _ => cases compound
    unfold coresOf
    rw [whole]
    rfl
  | future long =>
    have failed : futureOf value = .error (.fault .unconvertible) := by
      cases value with
      | bool | text => cases long
      | _ => exact refuseShown_of_long long
    rw [set_future, failed]
    rfl

/-- What comes of setting an option: it gets the value, or the value or the name is refused. -/
theorem set_cases (options : RunOptions) (name : String) (value : Value) :
    (∃ n, name = "cores" ∧ coresOf value = .ok n ∧
      options.set name value = .ok (options.withCores n)) ∨
    (∃ b, name = "future" ∧ futureOf value = .ok b ∧
      options.set name value = .ok { options with future := b }) ∨
    Refuses (IsRefusedPlainly name value) (options.set name value) := by
  by_cases cores : name = "cores"
  · subst cores
    rw [set_cores]
    rcases coresOf_cases value with ⟨n, given⟩ | refused
    · exact .inl ⟨n, rfl, given, by rw [given]; rfl⟩
    · exact .inr (.inr (refused.map _))
  by_cases future : name = "future"
  · subst future
    rw [set_future]
    rcases futureOf_cases value with ⟨b, given⟩ | refused
    · exact .inr (.inl ⟨b, rfl, given, by rw [given]; rfl⟩)
    · exact .inr (.inr (refused.map _))
  · rw [set_unknown options value cores future]
    exact .inr (.inr (.configuration _))

end RunOptions

/-- What is asked of the options of a session. -/
inductive OptionCall where
  | set (name : String) (value : Value)
  | get (name : String)
  /-- All options start anew from the variables of an environment. -/
  | reset (cores future : Option String)
  | snapshot

/-- What the calls of a session share. -/
structure OptionMemory where
  options : RunOptions := {}
  /-- The snapshots that were taken, in order. -/
  snapshots : List RunOptions := []

/-- Work on the options of a session. What was done before a failure stays done. -/
abbrev OptionWork := ExceptT Failure (StateM OptionMemory)

namespace OptionCall

open RunOptions

/-- What a call does. One that asks for the value of an option answers with it. -/
def perform : OptionCall → OptionWork (Option Value)
  | .set name value => do
    let options ← MonadExcept.ofExcept ((← MonadState.get).options.set name value)
    modify fun m => { m with options }
    return none
  | .get name => do
    return some (← MonadExcept.ofExcept
      (((← MonadState.get).options.get name).mapError IsFailure.toFailure))
  | .reset cores future => do
    let options ← MonadExcept.ofExcept (ofEnvironment cores future)
    modify fun m => { m with options }
    return none
  | .snapshot => do
    modify fun m => { m with snapshots := m.snapshots ++ [m.options] }
    return none

/-- How a call ends, and what the session holds afterwards. -/
def run (c : OptionCall) (m : OptionMemory) : Except Failure (Option Value) × OptionMemory :=
  (ExceptT.run c.perform).run m

/-- What the session holds after calls, one after the other. -/
def runAll (calls : List OptionCall) (m : OptionMemory) : OptionMemory :=
  calls.foldl (fun m c => (c.run m).2) m

/-- The number of cores that a call gives, if it takes effect on it. -/
def cores? : OptionCall → Option Int
  | .set name value => if name = "cores" then (coresOf value).toOption.map Subtype.val else none
  | .reset cores future => (ofEnvironment cores future).toOption.map RunOptions.cores
  | _ => none

/-- The choice about futures that a call gives, if it takes effect on it. -/
def future? : OptionCall → Option Bool
  | .set name value => if name = "future" then (futureOf value).toOption else none
  | .reset cores future => (ofEnvironment cores future).toOption.map RunOptions.future
  | _ => none

variable {c : OptionCall} {m : OptionMemory}

/-- Setting an option changes the options if they can be set, and nothing otherwise. -/
theorem run_set (name : String) (value : Value) (m : OptionMemory) :
    (OptionCall.set name value).run m = match m.options.set name value with
      | .ok options => (.ok none, { m with options })
      | .error e => (.error e, m) := by
  have step : (OptionCall.set name value).run m =
      (ExceptT.run (do
        let options ← (MonadExcept.ofExcept (m.options.set name value) : OptionWork RunOptions)
        modify fun m => { m with options }
        return none)).run m := rfl
  rw [step]
  cases m.options.set name value <;> rfl

/-- Asking for an option changes nothing. -/
theorem run_get (name : String) (m : OptionMemory) :
    (OptionCall.get name).run m =
      (((m.options.get name).mapError IsFailure.toFailure).map some, m) := by
  have step : (OptionCall.get name).run m =
      (ExceptT.run (do
        return some (← (MonadExcept.ofExcept
          ((m.options.get name).mapError IsFailure.toFailure) : OptionWork Value)))).run m := rfl
  rw [step]
  cases m.options.get name <;> rfl

/-- Options start anew if the environment gives some, and nothing changes otherwise. -/
theorem run_reset (cores future : Option String) (m : OptionMemory) :
    (OptionCall.reset cores future).run m = match ofEnvironment cores future with
      | .ok options => (.ok none, { m with options })
      | .error e => (.error e, m) := by
  have step : (OptionCall.reset cores future).run m =
      (ExceptT.run (do
        let options ← (MonadExcept.ofExcept (ofEnvironment cores future) : OptionWork RunOptions)
        modify fun m => { m with options }
        return none)).run m := rfl
  rw [step]
  cases ofEnvironment cores future <;> rfl

/-- A snapshot always succeeds, and holds the options as they are. -/
theorem run_snapshot (m : OptionMemory) :
    OptionCall.snapshot.run m = (.ok none, { m with snapshots := m.snapshots ++ [m.options] }) :=
  rfl

/-- A call that fails changes nothing. -/
theorem memory_of_failed {e : Failure} (failed : (c.run m).1 = .error e) : (c.run m).2 = m := by
  cases c with
  | set name value =>
    rw [run_set] at failed ⊢
    split at failed
    · cases failed
    · rfl
  | get name => rw [run_get]
  | reset cores future =>
    rw [run_reset] at failed ⊢
    split at failed
    · cases failed
    · rfl
  | snapshot => cases failed

/-- After a call each option has the value that the call gave it, or else the one that it had. -/
theorem options_run (c : OptionCall) (m : OptionMemory) :
    (c.run m).2.options.cores = c.cores?.getD m.options.cores ∧
      (c.run m).2.options.future = c.future?.getD m.options.future := by
  cases c with
  | set name value =>
    rw [run_set]
    by_cases cores : name = "cores"
    · subst cores
      rw [set_cores]
      cases given : coresOf value <;>
        simp [cores?, future?, given, withCores, Except.map, Except.toOption]
    by_cases future : name = "future"
    · subst future
      rw [set_future]
      cases given : futureOf value <;>
        simp [cores?, future?, given, Except.map, Except.toOption]
    · rw [set_unknown _ value cores future]
      simp [cores?, future?, cores, future]
  | get name => rw [run_get]; exact ⟨rfl, rfl⟩
  | reset cores future =>
    rw [run_reset]
    cases done : ofEnvironment cores future <;>
      simp [cores?, future?, done, Except.toOption]
  | snapshot => exact ⟨rfl, rfl⟩

/-- A call keeps the snapshots that were taken. -/
theorem snapshots_run (c : OptionCall) (m : OptionMemory) :
    m.snapshots <+: (c.run m).2.snapshots := by
  cases c with
  | set name value => rw [run_set]; split <;> exact List.prefix_rfl
  | get name => rw [run_get]
  | reset cores future => rw [run_reset]; split <;> exact List.prefix_rfl
  | snapshot => exact List.prefix_append _ _

/-- Calls keep the snapshots that were taken. -/
theorem snapshots_runAll (calls : List OptionCall) (m : OptionMemory) :
    m.snapshots <+: (runAll calls m).snapshots := by
  induction calls generalizing m with
  | nil => exact List.prefix_rfl
  | cons c calls kept => exact (snapshots_run c m).trans (kept (c.run m).2)

/-- After calls each option has the value that the last call gave it that took effect on it. -/
theorem options_runAll (calls : List OptionCall) (m : OptionMemory) :
    (runAll calls m).options.cores = (calls.filterMap cores?).getLastD m.options.cores ∧
      (runAll calls m).options.future = (calls.filterMap future?).getLastD m.options.future := by
  induction calls generalizing m with
  | nil => exact ⟨rfl, rfl⟩
  | cons c calls after =>
    obtain ⟨cores, future⟩ := options_run c m
    refine ⟨(after (c.run m).2).1.trans ?_, (after (c.run m).2).2.trans ?_⟩
    · rw [cores, List.filterMap_cons]
      cases c.cores? with
      | none => rfl
      | some n => exact (List.getLastD_cons ..).symm
    · rw [future, List.filterMap_cons]
      cases c.future? with
      | none => rfl
      | some b => exact (List.getLastD_cons ..).symm

/-- However options were set, asked for and started anew: a snapshot succeeds, and each option has
the value that the last call gave it that took effect on it; a call that fails changes nothing; a
value takes effect on its own option only, or is refused, by an error of the configuration or
plainly; and snapshots stay as they were taken. -/
theorem last_call_holds (start : RunOptions) (calls : List OptionCall) :
    let m := runAll calls { options := start }
    (∃ taken : RunOptions,
      OptionCall.snapshot.run m = (.ok none, { m with snapshots := m.snapshots ++ [taken] }) ∧
      1 ≤ taken.cores ∧
      taken.cores = (calls.filterMap cores?).getLastD start.cores ∧
      taken.future = (calls.filterMap future?).getLastD start.future) ∧
    (∀ (c : OptionCall) e, (c.run m).1 = .error e → (c.run m).2 = m) ∧
    (∀ name value,
      (∃ n, name = "cores" ∧ coresOf value = .ok n ∧ (OptionCall.set name value).run m =
        (.ok none, { m with options := m.options.withCores n })) ∨
      (∃ b, name = "future" ∧ futureOf value = .ok b ∧ (OptionCall.set name value).run m =
        (.ok none, { m with options := { m.options with future := b } })) ∨
      (∃ e, (OptionCall.set name value).run m = (.error (.configuration e), m)) ∨
      ∃ fault, IsRefusedPlainly name value fault) ∧
    (∀ name value fault, (OptionCall.set name value).run m = (.error (.fault fault), m) ↔
      IsRefusedPlainly name value fault) ∧
    ∀ later, m.snapshots <+: (runAll later m).snapshots := by
  intro m
  obtain ⟨cores_last, future_last⟩ := options_runAll calls { options := start }
  refine ⟨⟨m.options, run_snapshot m, m.options.cores_pos, cores_last, future_last⟩,
    fun c e failed => memory_of_failed failed, fun name value => ?_, fun name value fault => ?_,
    fun later => snapshots_runAll later m⟩
  · rw [run_set]
    rcases set_cases m.options name value with
      ⟨n, named, given, done⟩ | ⟨b, named, given, done⟩ | refused
    · exact .inl ⟨n, named, given, by rw [done]⟩
    · exact .inr (.inl ⟨b, named, given, by rw [done]⟩)
    · generalize m.options.set name value = outcome at refused
      cases refused with
      | configuration e => exact .inr (.inr (.inl ⟨e, rfl⟩))
      | plain own => exact .inr (.inr (.inr ⟨_, own⟩))
  · rw [run_set]
    constructor
    · intro failed
      rcases set_cases m.options name value with
        ⟨n, named, given, done⟩ | ⟨b, named, given, done⟩ | refused
      · rw [done] at failed
        cases failed
      · rw [done] at failed
        cases failed
      · generalize m.options.set name value = outcome at refused failed
        cases refused with
        | configuration e => cases failed
        | plain own =>
          cases failed
          exact own
    · intro refused
      rw [refused.set_eq m.options]

/-- An infinite number of cores is not refused by an error of the configuration. -/
theorem run_set_infinite : ¬∃ e, ((OptionCall.set "cores" (.float (1.0 / 0.0))).run {}).1 =
    .error (.configuration e) := by
  rintro ⟨e, refused⟩
  have plain : IsRefusedPlainly "cores" (.float (1.0 / 0.0)) .overflow :=
    .infinite (by decide +kernel) (by decide +kernel)
  rw [run_set, plain.set_eq] at refused
  cases refused

end OptionCall

end Multilevel
