import Multilevel.Proofs.Store.Keeps

/-!
# Work without requests and work without refusals

A refusal says that the model or its run is invalid. Two kinds of work are told apart: work of which
the engine hears nothing, and work that never ends with a refusal. Steps of one kind are together of
that kind.
-/
namespace Multilevel

/-- Whether a failure says that the model or its run is invalid. The failures of an engine that say
so are those of some kinds. -/
def Failure.IsRefusal (invalid : EngineErrorKind → Prop) : Failure → Prop
  | configuration _ => True
  | engine e => invalid e.kind
  | e => e.isSpecification = true

namespace Work

variable {ε α β : Type} {invalid : EngineErrorKind → Prop}

/-- Whether the engine hears nothing of work. -/
def IsUnheard (work : Work α) : Prop := ∀ w, (work.run w).2.calls = w.calls

/-- Whether work never ends with a refusal. -/
def Accepts (invalid : EngineErrorKind → Prop) (work : Work α) : Prop :=
  ∀ w e w', work.run w = (.error e, w') → ¬e.IsRefusal invalid

/-- Returning a value makes no request. -/
theorem isUnheard_pure (a : α) : (pure a : Work α).IsUnheard := fun _ => rfl

/-- A computation without effects makes no request. -/
theorem isUnheard_check [IsFailure ε] (x : Except ε α) : (check x).IsUnheard := fun w => by
  rw [run_check]

/-- A warning makes no request. -/
theorem isUnheard_warn (warning : Warning) : (warn warning).IsUnheard := fun _ => rfl

/-- Looking at the workspace makes no request. -/
theorem isUnheard_get : (get : Work Workspace).IsUnheard := fun _ => rfl

/-- Steps that make no request make none together. -/
theorem IsUnheard.bind {x : Work α} {f : α → Work β} (first : x.IsUnheard)
    (second : ∀ a, (f a).IsUnheard) : (x >>= f).IsUnheard := by
  intro w
  have own := first w
  rw [run_bind]
  cases done : x.run w with
  | mk outcome w' =>
    rw [done] at own
    cases outcome with
    | ok a => exact (second a w').trans own
    | error => exact own

/-- Steps of a list that make no request make none together. -/
theorem IsUnheard.forM {as : List α} {f : α → Work Unit} (each : ∀ a, (f a).IsUnheard) :
    (as.forM f).IsUnheard := by
  induction as with
  | nil => exact isUnheard_pure ()
  | cons a as ih => exact (each a).bind fun _ => ih

/-- Looking up a file makes no request. -/
theorem isUnheard_file? (path : String) : (file? path).IsUnheard :=
  isUnheard_get.bind fun _ => isUnheard_pure _

/-- A change of the disk makes no request. -/
theorem isUnheard_changeDisk (change : Disk → Except Fault Disk) :
    (changeDisk change).IsUnheard := fun w => by
  rw [run_changeDisk]
  cases change w.disk <;> rfl

/-- Making a temporary folder makes no request. -/
theorem isUnheard_makeTemporary : makeTemporary.IsUnheard :=
  isUnheard_get.bind fun _ => IsUnheard.bind (fun _ => rfl) fun _ =>
    (isUnheard_changeDisk _).bind fun _ => isUnheard_pure _

/-- Returning a value is no refusal. -/
theorem accepts_pure (a : α) : (pure a : Work α).Accepts invalid := by
  intro w e w' failed
  rw [run_pure] at failed
  cases (Prod.mk.inj failed).1

/-- Steps that refuse nothing refuse nothing together, where the second one may rely on a property
of the values of the first. -/
theorem Accepts.bind_of {x : Work α} {f : α → Work β} {post : α → Prop} (first : x.Accepts invalid)
    (yields : x.Yields post) (second : ∀ a, post a → (f a).Accepts invalid) :
    (x >>= f).Accepts invalid := by
  intro w e w' failed
  rw [run_bind] at failed
  split at failed
  · rename_i a between done
    exact second a (yields w a between done) between e w' failed
  · rename_i own between ended
    obtain ⟨same, rfl⟩ := Prod.mk.inj failed
    obtain rfl := Except.error.inj same
    exact first w _ _ ended

/-- Steps that refuse nothing refuse nothing together. -/
theorem Accepts.bind {x : Work α} {f : α → Work β} (first : x.Accepts invalid)
    (second : ∀ a, (f a).Accepts invalid) : (x >>= f).Accepts invalid :=
  first.bind_of (fun _ _ _ _ => trivial) fun a (_ : True) => second a

/-- A step that is taken under a condition alone refuses nothing if it does not. -/
theorem Accepts.optional {p : Prop} [Decidable p] {step : Work Unit} (each : step.Accepts invalid) :
    (if p then step else pure ()).Accepts invalid := by
  split
  · exact each
  · exact accepts_pure ()

/-- Steps of a list that refuse nothing refuse nothing together. -/
theorem Accepts.forM {as : List α} {f : α → Work Unit} (each : ∀ a, (f a).Accepts invalid) :
    (as.forM f).Accepts invalid := by
  induction as with
  | nil => exact accepts_pure ()
  | cons a as ih => exact (each a).bind fun _ => ih

end Work

end Multilevel
