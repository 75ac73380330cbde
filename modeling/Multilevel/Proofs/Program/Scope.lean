import Mathlib
import Multilevel.Program.Basic

/-!
# Uses in scope

A statement of a program may use what is declared before it: in its own block, in the bodies that
it stands in, and in the blocks that its block can see. Texts that stand for numbers are numerals,
so no variable hides in them. What is in scope stays in scope when more is declared
(`Statement.IsScoped.mono`), so the statements of a block are checked piece by piece
(`Statement.areScoped_append`).
-/
namespace Multilevel

/-- What may be used at a place of a program. -/
structure Scope where
  /-- The variables that are declared. -/
  declared : List Variable
  /-- The counters of the loops around the place. -/
  counters : List Counter := []

namespace Scope

/-- The scope after declarations. -/
def declare (scope : Scope) (more : List Variable) : Scope :=
  { scope with declared := scope.declared ++ more }

/-- The scope inside of a loop. -/
def count (scope : Scope) (c : Counter) : Scope := { scope with counters := c :: scope.counters }

@[simp] theorem declared_declare (scope : Scope) (more : List Variable) :
    (scope.declare more).declared = scope.declared ++ more := rfl

@[simp] theorem counters_declare (scope : Scope) (more : List Variable) :
    (scope.declare more).counters = scope.counters := rfl

@[simp] theorem declared_count (scope : Scope) (c : Counter) :
    (scope.count c).declared = scope.declared := rfl

@[simp] theorem counters_count (scope : Scope) (c : Counter) :
    (scope.count c).counters = c :: scope.counters := rfl

/-- Declarations in two parts. -/
theorem declare_declare (scope : Scope) (first second : List Variable) :
    (scope.declare first).declare second = scope.declare (first ++ second) := by
  rw [declare, declare, declare, List.append_assoc]

/-- Without declarations a scope stays as it is. -/
theorem declare_nil (scope : Scope) : scope.declare [] = scope := by
  rw [declare, List.append_nil]

/-- Whether everything in a scope is in another one. -/
structure Within (inner outer : Scope) : Prop where
  declared : ∀ v ∈ inner.declared, v ∈ outer.declared
  counters : ∀ c ∈ inner.counters, c ∈ outer.counters

variable {inner outer : Scope}

/-- A scope is within the scope after declarations. -/
theorem within_declare (scope : Scope) (more : List Variable) : scope.Within (scope.declare more) :=
  ⟨fun _ mem => List.mem_append_left more mem, fun _ mem => mem⟩

/-- The same declarations keep a scope within another one. -/
theorem Within.declare (within : inner.Within outer) (more : List Variable) :
    (inner.declare more).Within (outer.declare more) := by
  refine ⟨fun v mem => ?_, within.counters⟩
  rcases List.mem_append.mp mem with before | own
  · exact List.mem_append_left more (within.declared v before)
  · exact List.mem_append_right outer.declared own

/-- The same loop keeps a scope within another one. -/
theorem Within.count (within : inner.Within outer) (c : Counter) :
    (inner.count c).Within (outer.count c) := by
  refine ⟨within.declared, fun other mem => ?_⟩
  rcases List.mem_cons.mp mem with rfl | before
  · exact List.mem_cons_self
  · exact List.mem_cons_of_mem c (within.counters other before)

end Scope

/-- Whether a text is a numeral. -/
def IsNumeral (text : String) : Prop := ∀ c ∈ text.toList, c.isDigit = true ∨ c = '.' ∨ c = '-'

instance (text : String) : Decidable (IsNumeral text) := List.decidableBAll _ _

/-- A natural number is written as a numeral. -/
theorem isNumeral_toString (n : Nat) : IsNumeral (toString n) := by
  intro c mem
  have digits : (toString n).toList = Nat.toDigits 10 n := Nat.toList_repr
  rw [digits] at mem
  exact .inl (Nat.isDigit_of_mem_toDigits (by omega) (by omega) mem)

/-- Whether an expression uses nothing but what is in scope. Text of the user is left aside. -/
@[simp] def Expr.IsScoped (scope : Scope) : Expr → Prop
  | var v => v ∈ scope.declared
  | counter c => c ∈ scope.counters
  | literal digits => IsNumeral digits
  | verbatim _ | everything => True
  | binary _ left right | subscript left right => left.IsScoped scope ∧ right.IsScoped scope
  | grouped inner | transposed inner | call _ inner => inner.IsScoped scope

/-- Whether bounds are numerals. -/
@[simp] def Bounds.AreNumerals (bounds : Bounds) : Prop :=
  (∀ text ∈ bounds.lower, IsNumeral text) ∧ ∀ text ∈ bounds.upper, IsNumeral text

/-- Whether the bounds and the sizes of a type use nothing but what is in scope. -/
@[simp] def VariableType.IsScoped (scope : Scope) : VariableType → Prop
  | int bounds | real bounds => bounds.AreNumerals
  | vector bounds size | ints size bounds => bounds.AreNumerals ∧ size.IsScoped scope
  | matrix rows columns => rows.IsScoped scope ∧ columns.IsScoped scope
  | correlationFactor size | correlations size => size.IsScoped scope

/-- Whether a statement uses nothing but what is in scope or declared by a part of it before. A
variable is not in scope in its own declaration. -/
@[simp] def Statement.IsScoped : Statement → Scope → Prop
  | skip, _ | comment _, _ => True
  | seq first second, scope => first.IsScoped scope ∧ second.IsScoped (scope.declare first.declared)
  | declare type _ value _, scope => type.IsScoped scope ∧ ∀ e ∈ value, e.IsScoped scope
  | assign target value, scope | add target value, scope =>
    target.IsScoped scope ∧ value.IsScoped scope
  | increment density, scope => density.IsScoped scope
  | forEach c last body, scope => last.IsScoped scope ∧ body.IsScoped (scope.count c)
  | .unless flag body, scope => flag ∈ scope.declared ∧ body.IsScoped scope
  | redraw v lower upper draw, scope =>
    v ∈ scope.declared ∧ Bounds.AreNumerals ⟨some lower, upper⟩ ∧ draw.IsScoped scope

section Built

variable {scope : Scope} {left right place : Expr}

/-- The bounds and the numbers that programs hold are numerals. -/
@[simp] theorem isNumeral_constants :
    IsNumeral "0" ∧ IsNumeral "1" ∧ IsNumeral "-1" ∧ IsNumeral "0.0" := by decide

/-- The bound of a parameter of a distribution is a numeral. -/
@[simp] theorem Auxiliary.isNumeral_lower (parameter : Auxiliary) : IsNumeral parameter.lower := by
  cases parameter <;> decide

/-- A sum uses what its summands use. -/
@[simp] theorem Expr.isScoped_add :
    (left + right).IsScoped scope ↔ left.IsScoped scope ∧ right.IsScoped scope := Iff.rfl

/-- A difference uses what its parts use. -/
@[simp] theorem Expr.isScoped_sub :
    (left - right).IsScoped scope ↔ left.IsScoped scope ∧ right.IsScoped scope := Iff.rfl

/-- A product uses what its factors use. -/
@[simp] theorem Expr.isScoped_mul :
    (left * right).IsScoped scope ↔ left.IsScoped scope ∧ right.IsScoped scope := Iff.rfl

/-- Two arguments use what each of them uses. -/
@[simp] theorem Expr.isScoped_and :
    (left.and right).IsScoped scope ↔ left.IsScoped scope ∧ right.IsScoped scope := Iff.rfl

/-- Arguments use what each of them uses. -/
@[simp] theorem Expr.isScoped_list {rest : List Expr} :
    (left.list rest).IsScoped scope ↔ left.IsScoped scope ∧ ∀ e ∈ rest, e.IsScoped scope := by
  induction rest generalizing left with
  | nil => simp [list]
  | cons e rest ih =>
    have step : left.list (e :: rest) = (left.and e).list rest := rfl
    rw [step, ih, isScoped_and, List.forall_mem_cons, and_assoc]

/-- A column uses its matrix and its place. -/
@[simp] theorem Expr.isScoped_column {matrix : Variable} :
    (Expr.column matrix place).IsScoped scope ↔
      matrix ∈ scope.declared ∧ place.IsScoped scope := by
  simp [column]

/-- An element uses its array and its place. -/
@[simp] theorem Expr.isScoped_element {array : Variable} :
    (Expr.element array place).IsScoped scope ↔
      array ∈ scope.declared ∧ place.IsScoped scope := Iff.rfl

/-- A number uses nothing. -/
@[simp] theorem Expr.isScoped_ofNat (n : Nat) : (Expr.ofNat n).IsScoped scope := isNumeral_toString n

end Built

section Mono

variable {scope outer : Scope}

/-- The variables that an expression uses are those that have to be in scope. -/
theorem Expr.IsScoped.declared {e : Expr} (fine : e.IsScoped scope) :
    ∀ v ∈ e.uses, v ∈ scope.declared := by
  induction e with
  | var own => simpa [Expr.uses] using fine
  | counter | literal | verbatim | everything => simp [Expr.uses]
  | binary _ left right first second | subscript left right first second =>
    intro v mem
    rcases List.mem_append.mp mem with here | there
    · exact first fine.1 v here
    · exact second fine.2 v there
  | grouped inner ih | transposed inner ih | call _ inner ih => exact ih fine

/-- An expression in scope stays in scope. -/
theorem Expr.IsScoped.mono {e : Expr} (fine : e.IsScoped scope) (within : scope.Within outer) :
    e.IsScoped outer := by
  induction e with
  | var v => exact within.declared v fine
  | counter c => exact within.counters c fine
  | literal | verbatim | everything => exact fine
  | binary _ left right first second | subscript left right first second =>
    exact ⟨first fine.1, second fine.2⟩
  | grouped inner ih | transposed inner ih | call _ inner ih => exact ih fine

/-- A type in scope stays in scope. -/
theorem VariableType.IsScoped.mono {type : VariableType} (fine : type.IsScoped scope)
    (within : scope.Within outer) : type.IsScoped outer := by
  cases type with
  | int | real => exact fine
  | vector bounds size | ints size bounds => exact ⟨fine.1, fine.2.mono within⟩
  | matrix rows columns => exact ⟨fine.1.mono within, fine.2.mono within⟩
  | correlationFactor size | correlations size => exact Expr.IsScoped.mono fine within

/-- A statement in scope stays in scope. -/
theorem Statement.IsScoped.mono {statement : Statement} (fine : statement.IsScoped scope)
    (within : scope.Within outer) : statement.IsScoped outer := by
  induction statement generalizing scope outer with
  | skip | comment => trivial
  | seq first second one two => exact ⟨one fine.1 within, two fine.2 (within.declare _)⟩
  | declare type v value note =>
    exact ⟨fine.1.mono within, fun e mem => (fine.2 e mem).mono within⟩
  | assign target value | add target value => exact ⟨fine.1.mono within, fine.2.mono within⟩
  | increment density => exact Expr.IsScoped.mono fine within
  | forEach c last body ih => exact ⟨fine.1.mono within, ih fine.2 (within.count c)⟩
  | «unless» flag body ih => exact ⟨within.declared flag fine.1, ih fine.2 within⟩
  | redraw v lower upper draw =>
    exact ⟨within.declared v fine.1, fine.2.1, fine.2.2.mono within⟩

end Mono

namespace Statement

/-- Whether each of some statements uses nothing but what is in scope or declared before it. -/
def AreScoped (scope : Scope) (statements : List Statement) : Prop :=
  (ofList statements).IsScoped scope

variable {scope : Scope} {statement : Statement} {first second : List Statement}

/-- What statements in order declare. -/
@[simp] theorem declared_ofList (statements : List Statement) :
    (ofList statements).declared = statements.flatMap declared := by
  induction statements with
  | nil => rfl
  | cons statement rest ih =>
    have step : (ofList (statement :: rest)).declared =
      statement.declared ++ (ofList rest).declared := rfl
    rw [step, ih, List.flatMap_cons]

/-- A body is in scope if its statements are. -/
@[simp] theorem isScoped_ofList (statements : List Statement) :
    (ofList statements).IsScoped scope ↔ AreScoped scope statements := Iff.rfl

/-- No statements use nothing. -/
@[simp] theorem areScoped_nil : AreScoped scope [] := trivial

/-- A statement comes before the others. -/
@[simp] theorem areScoped_cons : AreScoped scope (statement :: second) ↔
    statement.IsScoped scope ∧ AreScoped (scope.declare statement.declared) second := Iff.rfl

/-- Statements come before others. -/
@[simp] theorem areScoped_append : AreScoped scope (first ++ second) ↔
    AreScoped scope first ∧ AreScoped (scope.declare (first.flatMap declared)) second := by
  induction first generalizing scope with
  | nil => simp [Scope.declare_nil]
  | cons statement rest ih =>
    rw [List.cons_append, areScoped_cons, areScoped_cons, ih, List.flatMap_cons,
      Scope.declare_declare, and_assoc]

/-- Each statement is in scope after the declarations before it. -/
theorem areScoped_iff {statements : List Statement} : AreScoped scope statements ↔
    ∀ before statement after, statements = before ++ statement :: after →
      statement.IsScoped (scope.declare (before.flatMap declared)) := by
  constructor
  · rintro fine before statement after rfl
    rw [areScoped_append, areScoped_cons] at fine
    exact fine.2.1
  · intro each
    induction statements generalizing scope with
    | nil => exact areScoped_nil
    | cons statement rest ih =>
      have own := each [] statement rest rfl
      rw [List.flatMap_nil, Scope.declare_nil] at own
      refine areScoped_cons.mpr ⟨own, ih fun before other after split => ?_⟩
      have later := each (statement :: before) other after (by rw [split, List.cons_append])
      rwa [List.flatMap_cons, ← Scope.declare_declare] at later

/-- Statements in scope stay in scope. -/
theorem AreScoped.mono {outer : Scope} {statements : List Statement}
    (fine : AreScoped scope statements) (within : scope.Within outer) :
    AreScoped outer statements := IsScoped.mono fine within

/-- Statements in scope by themselves are in scope one after the other. -/
theorem AreScoped.append (one : AreScoped scope first) (two : AreScoped scope second) :
    AreScoped scope (first ++ second) :=
  areScoped_append.mpr ⟨one, two.mono (scope.within_declare _)⟩

/-- Pieces each of which is in scope by itself are in scope one after the other. -/
theorem areScoped_flatMap {α : Type} {pieces : List α} {f : α → List Statement}
    (each : ∀ piece ∈ pieces, AreScoped scope (f piece)) : AreScoped scope (pieces.flatMap f) := by
  induction pieces with
  | nil => exact areScoped_nil
  | cons piece rest ih =>
    rw [List.flatMap_cons]
    apply AreScoped.append
    · exact each piece List.mem_cons_self
    · exact ih fun other mem => each other (List.mem_cons_of_mem piece mem)

/-- Statements that there may be are in scope one after the other. -/
theorem areScoped_filterMap {α : Type} {pieces : List α} {f : α → Option Statement}
    (each : ∀ piece ∈ pieces, AreScoped scope (f piece).toList) :
    AreScoped scope (pieces.filterMap f) := by
  rw [List.filterMap_eq_flatMap_toList]
  exact areScoped_flatMap each

/-- Statements each of which is in scope by itself are in scope one after the other. -/
theorem areScoped_of_forall {statements : List Statement}
    (each : ∀ statement ∈ statements, statement.IsScoped scope) : AreScoped scope statements := by
  rw [← List.flatMap_singleton' statements]
  refine areScoped_flatMap fun statement mem => areScoped_cons.mpr ⟨each statement mem, ?_⟩
  exact areScoped_nil

end Statement

end Multilevel
