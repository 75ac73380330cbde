import Mathlib
import Multilevel.Proofs.Outcome

/-!
# Computations that end alike

Two computations end alike if both end with values that are related, or both with the same error.
Steps that end alike do so one after the other, over a list and in a fold: what is related in the
data of two computations is carried to their results, refusals included. Computations end together
if their errors are at least related.
-/
namespace Multilevel

variable {ε ε' α β γ δ : Type} {related : α → β → Prop} {next : γ → δ → Prop}

/-- Whether two computations end with related values or with the same error. -/
inductive EndAlike (related : α → β → Prop) : Except ε α → Except ε β → Prop where
  | ok {a b} (values : related a b) : EndAlike related (.ok a) (.ok b)
  | error (e : ε) : EndAlike related (.error e) (.error e)

namespace EndAlike

/-- Related values are results of computations that end alike. -/
theorem pure {a : α} {b : β} (values : related a b) :
    EndAlike (ε := ε) related (pure a) (pure b) := ok values

/-- A computation ends as it does. -/
theorem refl {same : α → α → Prop} (each : ∀ a, same a a) (x : Except ε α) : EndAlike same x x := by
  cases x with
  | ok a => exact .ok (each a)
  | error e => exact .error e

/-- Computations that end alike with equal values are equal. -/
theorem eq {x y : Except ε α} (alike : EndAlike Eq x y) : x = y := by
  cases alike with
  | ok values => rw [values]
  | error => rfl

/-- The related values are those that the computations end with. -/
theorem reached {x : Except ε α} {y : Except ε β} (alike : EndAlike related x y) :
    EndAlike (fun a b => related a b ∧ x = .ok a ∧ y = .ok b) x y := by
  cases alike with
  | ok values => exact .ok ⟨values, rfl, rfl⟩
  | error e => exact .error e

/-- A weaker relation of the values. -/
theorem imp {weaker : α → β → Prop} {x : Except ε α} {y : Except ε β}
    (alike : EndAlike related x y) (weaken : ∀ a b, related a b → weaker a b) :
    EndAlike weaker x y := by
  cases alike with
  | ok values => exact .ok (weaken _ _ values)
  | error e => exact .error e

/-- Steps that end alike, one after the other. -/
theorem bind {x : Except ε α} {y : Except ε β} {f : α → Except ε γ} {g : β → Except ε δ}
    (first : EndAlike related x y) (rest : ∀ a b, related a b → EndAlike next (f a) (g b)) :
    EndAlike next (x >>= f) (y >>= g) := by
  cases first with
  | ok values => exact rest _ _ values
  | error e => exact .error e

/-- Errors of another kind are the same if those they stand for are. -/
theorem mapError {x : Except ε α} {y : Except ε β} (alike : EndAlike related x y) (f : ε → ε') :
    EndAlike related (x.mapError f) (y.mapError f) := by
  cases alike with
  | ok values => exact .ok values
  | error e => exact .error (f e)

/-- Computations with errors of one kind end alike among failures. -/
theorem lift [IsFailure ε] {x : Except ε α} {y : Except ε β} (alike : EndAlike related x y) :
    EndAlike related (liftM x : Except Failure α) (liftM y : Except Failure β) :=
  alike.mapError _

/-- Related results of two lists of computations that end alike. -/
theorem mapM {as : List α} {bs : List β} {f : α → Except ε γ} {g : β → Except ε δ}
    (alike : List.Forall₂ (fun a b => EndAlike next (f a) (g b)) as bs) :
    EndAlike (List.Forall₂ next) (as.mapM f) (bs.mapM g) := by
  induction alike with
  | nil => exact .ok .nil
  | cons first _ ih =>
    rw [List.mapM_cons, List.mapM_cons]
    exact first.bind fun _ _ value => ih.bind fun _ _ values => .pure (.cons value values)

/-- Computations over the images of a list, each of which ends with the image of a result. -/
theorem mapM_map {as : List α} {f : α → Except ε γ} {g : β → Except ε δ} {image : α → β}
    {result : γ → δ}
    (each : ∀ a ∈ as, EndAlike (fun c d => d = result c) (f a) (g (image a))) :
    EndAlike (fun cs ds => ds = cs.map result) (as.mapM f) ((as.map image).mapM g) := by
  refine (mapM (List.forall₂_map_right_iff.mpr (List.forall₂_same.mpr each))).imp ?_
  intro cs ds same
  refine Eq.symm (List.forall₂_eq_eq_eq ▸ List.forall₂_map_left_iff.mpr ?_)
  exact same.imp fun _ _ => Eq.symm

/-- Folds over one list whose steps end alike. -/
theorem foldlM {items : List γ} {f : α → γ → Except ε α} {g : β → γ → Except ε β}
    (step : ∀ item ∈ items, ∀ a b, related a b → EndAlike related (f a item) (g b item)) {a : α}
    {b : β} (start : related a b) : EndAlike related (items.foldlM f a) (items.foldlM g b) := by
  induction items generalizing a b with
  | nil => exact .ok start
  | cons item rest ih =>
    obtain ⟨first, others⟩ := List.forall_mem_cons.mp step
    rw [List.foldlM_cons, List.foldlM_cons]
    exact (first a b start).bind fun _ _ values => ih others values

end EndAlike

/-- Whether two computations end with related values or with related errors. -/
inductive EndTogether (errors : ε → ε' → Prop) (related : α → β → Prop) :
    Except ε α → Except ε' β → Prop where
  | ok {a b} (values : related a b) : EndTogether errors related (.ok a) (.ok b)
  | error {e e'} (failures : errors e e') : EndTogether errors related (.error e) (.error e')

namespace EndTogether

variable {errors : ε → ε → Prop}

/-- Computations that end alike end together if equal errors are related. -/
theorem of_alike {x : Except ε α} {y : Except ε β} (alike : EndAlike related x y)
    (same : ∀ e, errors e e) : EndTogether errors related x y := by
  cases alike with
  | ok values => exact .ok values
  | error e => exact .error (same e)

/-- The related values are those that the computations end with. -/
theorem reached {x : Except ε α} {y : Except ε β} (together : EndTogether errors related x y) :
    EndTogether errors (fun a b => related a b ∧ x = .ok a ∧ y = .ok b) x y := by
  cases together with
  | ok values => exact .ok ⟨values, rfl, rfl⟩
  | error failures => exact .error failures

/-- Weaker relations of the errors and of the values. -/
theorem imp {weaker : α → β → Prop} {errors' : ε → ε → Prop} {x : Except ε α} {y : Except ε β}
    (together : EndTogether errors related x y) (failures : ∀ e e', errors e e' → errors' e e')
    (values : ∀ a b, related a b → weaker a b) : EndTogether errors' weaker x y := by
  cases together with
  | ok own => exact .ok (values _ _ own)
  | error own => exact .error (failures _ _ own)

/-- Steps that end together, one after the other. -/
theorem bind {x : Except ε α} {y : Except ε β} {f : α → Except ε γ} {g : β → Except ε δ}
    (first : EndTogether errors related x y)
    (rest : ∀ a b, related a b → EndTogether errors next (f a) (g b)) :
    EndTogether errors next (x >>= f) (y >>= g) := by
  cases first with
  | ok values => exact rest _ _ values
  | error failures => exact .error failures

/-- Computations that begin with the same step. -/
theorem bind_self (same : ∀ e, errors e e) {x : Except ε α} {f : α → Except ε γ}
    {g : α → Except ε δ} (rest : ∀ a, x = .ok a → EndTogether errors next (f a) (g a)) :
    EndTogether errors next (x >>= f) (x >>= g) := by
  cases x with
  | ok a => exact rest a rfl
  | error e => exact .error (same e)

/-- Choices between computations that end together, made alike. -/
theorem ite {c c' : Prop} [Decidable c] [Decidable c'] {x x' : Except ε α} {y y' : Except ε β}
    (alike : c ↔ c') (left : c → EndTogether errors related x y)
    (right : ¬c → EndTogether errors related x' y') :
    EndTogether errors related (if c then x else x') (if c' then y else y') := by
  by_cases holds : c
  · rw [if_pos holds, if_pos (alike.mp holds)]
    exact left holds
  · rw [if_neg holds, if_neg fun other => holds (alike.mpr other)]
    exact right holds

/-- Errors of another kind are related if those they stand for are. -/
theorem mapError {errors' : ε' → ε' → Prop} {x : Except ε α} {y : Except ε β}
    (together : EndTogether errors related x y) (f : ε → ε')
    (kept : ∀ e e', errors e e' → errors' (f e) (f e')) :
    EndTogether errors' related (x.mapError f) (y.mapError f) := by
  cases together with
  | ok values => exact .ok values
  | error failures => exact .error (kept _ _ failures)

/-- Of computations that end together, one has a value if the other one has. -/
theorem exists_ok {x : Except ε α} {y : Except ε β} (together : EndTogether errors related x y)
    {a : α} (done : x = .ok a) : ∃ b, y = .ok b ∧ related a b := by
  subst done
  cases together with
  | ok values => exact ⟨_, rfl, values⟩

end EndTogether

end Multilevel
