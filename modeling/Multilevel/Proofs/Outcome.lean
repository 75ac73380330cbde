import Mathlib
import Multilevel.Failure

/-!
# Computations that end with a value

What a computation did is read off the value that it ended with: each of its steps ended with a
value too, and none of its refusals was reached. The rules below take such an equation apart from
the outside inwards, so that no proof has to follow the refusals.
-/
namespace Multilevel

variable {ε ε' α β : Type}

/-- Two steps end with a value exactly if the first does and the second does after it. -/
theorem bind_eq_ok {x : Except ε α} {f : α → Except ε β} {b : β} :
    (x >>= f) = .ok b ↔ ∃ a, x = .ok a ∧ f a = .ok b := by
  cases x <;> simp [bind, Except.bind]

/-- Two steps fail if the first does, or if the second does after it. -/
theorem bind_eq_error {x : Except ε α} {f : α → Except ε β} {e : ε}
    (failed : (x >>= f) = .error e) : x = .error e ∨ ∃ a, x = .ok a ∧ f a = .error e := by
  cases x with
  | ok a => exact .inr ⟨a, rfl, failed⟩
  | error => exact .inl (congrArg _ (Except.error.inj failed))

/-- A value computed from that of a step. -/
theorem map_eq_ok {x : Except ε α} {f : α → β} {b : β} :
    (f <$> x) = .ok b ↔ ∃ a, x = .ok a ∧ f a = b := by
  cases x <;> simp [Functor.map, Except.map]

/-- The value that a computation returns. -/
theorem pure_eq_ok {a b : α} : (pure a : Except ε α) = .ok b ↔ a = b := by
  simp [pure, Except.pure]

/-- The kind of an error does not matter to a value. -/
theorem mapError_eq_ok {x : Except ε α} {f : ε → ε'} {a : α} :
    x.mapError f = .ok a ↔ x = .ok a := by
  cases x <;> simp [Except.mapError]

/-- A computation with errors of one kind among failures. -/
theorem liftM_eq_mapError [IsFailure ε] (x : Except ε α) :
    (liftM x : Except Failure α) = x.mapError IsFailure.toFailure := rfl

/-- Nothing comes after a thrown error. -/
theorem throw_bind (e : ε) (f : α → Except ε β) : (throw e >>= f) = throw e := rfl

/-- A thrown error is no value. -/
theorem throw_ne_ok {e : ε} {a : α} : (throw e : Except ε α) = .ok a ↔ False := by
  simp [throw, throwThe, MonadExceptOf.throw]

/-- Nothing comes after a refusal. -/
theorem refuse_bind [IsFailure ε] (e : ε) (f : α → Except Failure β) :
    ((refuse e : Except Failure α) >>= f) = refuse e := rfl

/-- A refusal is no value. -/
theorem refuse_ne_ok [IsFailure ε] {e : ε} {a : α} :
    (refuse e : Except Failure α) = .ok a ↔ False := by
  simp [refuse, throw, throwThe, MonadExceptOf.throw]

/-- A computation behind a condition under which there would have been an error. -/
theorem ite_error_eq_ok {c : Prop} [Decidable c] {e : ε} {x : Except ε α} {a : α} :
    (if c then .error e else x) = .ok a ↔ ¬c ∧ x = .ok a := by
  split <;> simp_all

/-- A computation behind a condition under which an error would have been thrown. -/
theorem ite_throw_eq_ok {c : Prop} [Decidable c] {e : ε} {x : Except ε α} {a : α} :
    (if c then throw e else x) = .ok a ↔ ¬c ∧ x = .ok a :=
  ite_error_eq_ok

/-- A computation behind a condition under which it would have been refused. -/
theorem ite_refuse_eq_ok [IsFailure ε] {c : Prop} [Decidable c] {e : ε} {x : Except Failure α}
    {a : α} : (if c then refuse e else x) = .ok a ↔ ¬c ∧ x = .ok a :=
  ite_error_eq_ok

/-- A computation that is known to end with a value. -/
theorem exists_of_isOk {x : Except ε α} (done : x.isOk = true) : ∃ a, x = .ok a := by
  cases x with
  | ok a => exact ⟨a, rfl⟩
  | error => cases done

/-- A computation that is known to end with a value that passes a test. -/
theorem exists_of_any (x : Except ε α) (test : α → Bool) (done : x.toOption.any test = true) :
    ∃ a, x = .ok a ∧ test a = true := by
  cases x with
  | ok a => exact ⟨a, rfl, done⟩
  | error => cases done

/-- The error that a computation ends with, if it does. -/
def error? : Except ε α → Option ε
  | .ok _ => none
  | .error e => some e

/-- A computation that is known to end with an error. -/
theorem eq_error_of_error? {x : Except ε α} {e : ε} (failed : error? x = some e) :
    x = .error e := by
  cases x with
  | ok a => cases failed
  | error e' => rw [Option.some.inj failed]

/-- A list of computations ends with a list of values exactly if each ends with its own. -/
theorem mapM_eq_ok {f : α → Except ε β} {as : List α} {bs : List β} :
    as.mapM f = .ok bs ↔ List.Forall₂ (fun a b => f a = .ok b) as bs := by
  induction as generalizing bs with
  | nil => simp [List.mapM_nil, pure, Except.pure, eq_comm]
  | cons a as ih =>
    simp only [List.mapM_cons, bind_eq_ok, pure_eq_ok, ih]
    constructor
    · rintro ⟨b, first, rest, others, rfl⟩
      exact .cons first others
    · intro all
      cases all with
      | cons first others => exact ⟨_, first, _, others, rfl⟩

/-- A list of computations each of which ends with a value. -/
theorem exists_mapM_eq_ok {f : α → Except ε β} {as : List α}
    (each : ∀ a ∈ as, ∃ b, f a = .ok b) : ∃ bs, as.mapM f = .ok bs := by
  induction as with
  | nil => exact ⟨[], rfl⟩
  | cons a as ih =>
    obtain ⟨b, first⟩ := each a (by simp)
    obtain ⟨bs, others⟩ := ih fun a mem => each a (by simp [mem])
    exact ⟨b :: bs, by simp [List.mapM_cons, first, others, bind, Except.bind, pure, Except.pure]⟩

/-- Every element of a list is related to one of a related list. -/
theorem exists_mem_of_forall₂ {related : α → β → Prop} {as : List α} {bs : List β}
    (all : List.Forall₂ related as bs) {a : α} (mem : a ∈ as) : ∃ b ∈ bs, related a b := by
  induction all with
  | nil => cases mem
  | @cons _ b _ _ first _ ih =>
    rcases List.mem_cons.mp mem with rfl | later
    · exact ⟨b, List.mem_cons_self, first⟩
    · obtain ⟨other, inside, holds⟩ := ih later
      exact ⟨other, List.mem_cons_of_mem _ inside, holds⟩

/-- The elements of related lists are related as elements of the first. -/
theorem forall₂_and_mem {related : α → β → Prop} {as : List α} {bs : List β}
    (all : List.Forall₂ related as bs) :
    List.Forall₂ (fun a b => a ∈ as ∧ related a b) as bs := by
  induction all with
  | nil => exact .nil
  | cons first _ ih =>
    exact .cons ⟨List.mem_cons_self, first⟩
      (ih.imp fun _ _ => And.imp_left (List.mem_cons_of_mem _))

/-- Elements each of which is related to something are related to a list. -/
theorem exists_forall₂ {related : α → β → Prop} {as : List α} (each : ∀ a ∈ as, ∃ b, related a b) :
    ∃ bs, List.Forall₂ related as bs := by
  induction as with
  | nil => exact ⟨[], .nil⟩
  | cons a as ih =>
    obtain ⟨b, first⟩ := each a List.mem_cons_self
    obtain ⟨bs, others⟩ := ih fun other mem => each other (List.mem_cons_of_mem _ mem)
    exact ⟨b :: bs, .cons first others⟩

/-- Every value of a list of computations is that of one of them. -/
theorem exists_of_mem_mapM {f : α → Except ε β} {as : List α} {bs : List β}
    (done : as.mapM f = .ok bs) {b : β} (mem : b ∈ bs) : ∃ a ∈ as, f a = .ok b :=
  exists_mem_of_forall₂ (List.Forall₂.flip (mapM_eq_ok.mp done)) mem

/-- The first failure among computations is that of the list of them. -/
theorem mapM_append_eq_error {f : α → Except ε β} {before after : List α} {a : α} {bs : List β}
    {e : ε} (done : before.mapM f = .ok bs) (failed : f a = .error e) :
    (before ++ a :: after).mapM f = .error e := by
  rw [List.mapM_append, done, List.mapM_cons, failed]
  rfl

/-- A list of computations that fails ends with the error of one of them. -/
theorem exists_of_mapM_eq_error {f : α → Except ε β} {as : List α} {e : ε}
    (failed : as.mapM f = .error e) : ∃ a ∈ as, f a = .error e := by
  induction as with
  | nil => cases failed
  | cons a as ih =>
    rw [List.mapM_cons] at failed
    rcases bind_eq_error failed with own | ⟨_, _, rest⟩
    · exact ⟨a, List.mem_cons_self, own⟩
    · rcases bind_eq_error rest with other | ⟨_, _, last⟩
      · obtain ⟨b, mem, own⟩ := ih other
        exact ⟨b, List.mem_cons_of_mem _ mem, own⟩
      · cases last

/-- A list of checks is passed exactly if each of them is. -/
theorem forM_eq_ok {f : α → Except ε Unit} {as : List α} :
    as.forM f = .ok () ↔ ∀ a ∈ as, f a = .ok () := by
  induction as with
  | nil => simp [pure, Except.pure]
  | cons a as ih =>
    have step : (a :: as).forM f = f a >>= fun _ => as.forM f := rfl
    rw [step, bind_eq_ok, List.forall_mem_cons, ← ih]
    constructor
    · rintro ⟨_, first, rest⟩
      exact ⟨first, rest⟩
    · rintro ⟨first, rest⟩
      exact ⟨_, first, rest⟩

/-- A list of checks that is not passed ends with the error of one of them. -/
theorem exists_of_forM_eq_error {f : α → Except ε Unit} {as : List α} {e : ε}
    (failed : as.forM f = .error e) : ∃ a ∈ as, f a = .error e := by
  induction as with
  | nil => cases failed
  | cons a as ih =>
    have step : (a :: as).forM f = f a >>= fun _ => as.forM f := rfl
    rw [step] at failed
    cases first : f a with
    | error =>
      rw [first] at failed
      obtain rfl := Except.error.inj failed
      exact ⟨a, List.mem_cons_self, first⟩
    | ok =>
      rw [first] at failed
      obtain ⟨other, mem, own⟩ := ih failed
      exact ⟨other, List.mem_cons_of_mem _ mem, own⟩

/-- What holds of the elements taken so far and the value reached holds of all elements and the last
value, if every step keeps it. -/
theorem foldlM_spec {f : β → α → Except ε β} (holds : List α → β → Prop)
    (step : ∀ before a b b', holds before b → f b a = .ok b' → holds (before ++ [a]) b')
    (before as : List α) {b last : β} (start : holds before b) (done : as.foldlM f b = .ok last) :
    holds (before ++ as) last := by
  induction as generalizing before b with
  | nil =>
    obtain rfl := Except.ok.inj done
    simpa using start
  | cons a as ih =>
    rw [List.foldlM_cons, bind_eq_ok] at done
    obtain ⟨next, first, rest⟩ := done
    simpa using ih (before ++ [a]) (step before a b next start first) rest

namespace Reported

/-- The outcome of two steps with warnings. -/
theorem outcome_bind (x : Reported α) (f : α → Reported β) :
    (x >>= f).outcome = x.outcome >>= fun a => (f a).outcome := by
  cases x with
  | mk warnings outcome => cases outcome <;> rfl

/-- A computation issues no warnings if none of its steps does. -/
theorem warnings_bind {x : Reported α} {f : α → Reported β}
    (first : x.warnings = []) (second : ∀ a, x.outcome = .ok a → (f a).warnings = []) :
    (x >>= f).warnings = [] := by
  obtain ⟨warnings, outcome⟩ := x
  obtain rfl : warnings = [] := first
  cases outcome with
  | ok a => exact second a rfl
  | error => rfl

/-- The outcome of returning a value. -/
theorem outcome_pure (a : α) : (pure a : Reported α).outcome = .ok a := rfl

/-- The outcome of a computation without warnings. -/
theorem outcome_liftM [IsFailure ε] (x : Except ε α) :
    (liftM x : Reported α).outcome = x.mapError IsFailure.toFailure := rfl

/-- A warning does not change the outcome of what follows it. -/
theorem outcome_warn_bind (warning : Warning) (f : Unit → Reported β) :
    (warn warning >>= f).outcome = (f ()).outcome := rfl

/-- Nothing comes after a refusal. -/
theorem refuse_bind [IsFailure ε] (e : ε) (f : α → Reported β) :
    ((refuse e : Reported α) >>= f) = refuse e := by
  simp [refuse, throw, throwThe, MonadExceptOf.throw, fail, bind, Reported.bind]

/-- The outcome of a refusal. -/
theorem outcome_refuse [IsFailure ε] (e : ε) :
    (refuse e : Reported α).outcome = refuse e := rfl

/-- The outcome of a choice between computations. -/
theorem outcome_ite {c : Prop} [Decidable c] (x y : Reported α) :
    (if c then x else y).outcome = if c then x.outcome else y.outcome := by
  split <;> rfl

end Reported

end Multilevel
