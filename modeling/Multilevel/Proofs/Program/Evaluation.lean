import Multilevel.Proofs.Program.Arrays

/-!
# Evaluating expressions and running statements

Rules by which expressions get their values and statements change the values of variables, one
for each form of expression or statement that the linear predictor uses. A loop is run by telling
the values after each of its rounds (`Statement.run_forEach`).
-/
namespace Multilevel

open Exact (tabulate replicate_eq_tabulate)

/-- Whether an expression has a value. -/
def Expr.Evaluates (counts : Counts) (values : Values) (e : Expr) (x : Exact) : Prop :=
  e.meaning counts values = some [.single x]

namespace Expr.Evaluates

variable {counts : Counts} {values : Values} {a b : Expr} {x y z : Exact}

/-- A variable has the value it holds. -/
theorem var {v : Variable} (holds : values v = some x) : Evaluates counts values v x :=
  congrArg (Option.map fun x => [Place.single x]) holds

/-- A counter has the value it counts. -/
theorem counter {c : Counter} {n : Int} (counted : counts c = some n) :
    Evaluates counts values c (.int n) :=
  congrArg (Option.map fun n => [Place.single (.int n)]) counted

/-- The expression of a natural number has that number as its value. -/
theorem ofNat (n : Nat) : Evaluates counts values (Expr.ofNat n) (.int n) := by
  rw [Evaluates, Expr.ofNat, meaning, Text.natural?_toString]

/-- The literal of zero as a real number. -/
theorem zero : (Expr.literal "0.0").Evaluates counts values (.real 0) := by
  have digits : Text.natural? "0.0" = none := by decide
  have decimal : Text.decimal? "0.0" = some 0 := by rfl
  rw [Evaluates, meaning, digits, decimal]
  rfl

/-- An expression with a mark stands for what the mark makes of both sides. -/
theorem meaning_binary {op : Operator} {first second : List Place}
    (left : a.meaning counts values = some first) (right : b.meaning counts values = some second) :
    (binary op a b).meaning counts values = op.apply first second := by
  show (do op.apply (← a.meaning counts values) (← b.meaning counts values)) = _
  rw [left, right]
  rfl

/-- A sum has the sum as its value. -/
theorem add (left : a.Evaluates counts values x) (right : b.Evaluates counts values y)
    (sum : x.combine (· + ·) (· + ·) y = some z) : (a + b).Evaluates counts values z :=
  (meaning_binary left right).trans (congrArg (Option.map fun z => [Place.single z]) sum)

/-- A difference has the difference as its value. -/
theorem sub (left : a.Evaluates counts values x) (right : b.Evaluates counts values y)
    (difference : x.combine (· - ·) (· - ·) y = some z) : (a - b).Evaluates counts values z :=
  (meaning_binary left right).trans (congrArg (Option.map fun z => [Place.single z]) difference)

/-- A product has the product as its value. -/
theorem mul (left : a.Evaluates counts values x) (right : b.Evaluates counts values y)
    (product : x.times y = some z) : (a * b).Evaluates counts values z :=
  (meaning_binary left right).trans (congrArg (Option.map fun z => [Place.single z]) product)

/-- Two arguments are listed in order. -/
theorem and {first second : List Place} (left : a.meaning counts values = some first)
    (right : b.meaning counts values = some second) :
    (a.and b).meaning counts values = some (first ++ second) :=
  meaning_binary left right

/-- Several arguments are listed in order. -/
theorem list {first : Expr} {places : List Place} {rest : List Expr} {more : List Exact}
    (given : first.meaning counts values = some places)
    (others : List.Forall₂ (Evaluates counts values) rest more) :
    (first.list rest).meaning counts values = some (places ++ more.map .single) := by
  induction others generalizing first places with
  | nil => rwa [List.map_nil, List.append_nil]
  | @cons _ value _ _ evaluates _ ih =>
    have two := ih (and given evaluates)
    rwa [List.append_assoc] at two

/-- What stands at the subscripts of an array. -/
theorem subscript {places : List Place} (array : a.Evaluates counts values x)
    (located : b.meaning counts values = some places) (selected : x.select places = some z) :
    (Expr.subscript a b).Evaluates counts values z := by
  show (do
    let x ← Place.only? (← a.meaning counts values)
    (x.select (← b.meaning counts values)).map fun z => [Place.single z]) = _
  rw [array, located]
  exact congrArg (Option.map fun z => [Place.single z]) selected

/-- An element of an array is what stands at its place. -/
theorem element {array : Variable} (holds : values array = some x)
    (place : a.Evaluates counts values y) (selected : x.select [.single y] = some z) :
    (Expr.element array a).Evaluates counts values z :=
  subscript (var holds) place selected

/-- A column of a matrix is what stands at its place. -/
theorem column {matrix : Variable} (holds : values matrix = some x)
    (place : a.Evaluates counts values y)
    (selected : x.select [.everywhere, .single y] = some z) :
    (Expr.column matrix a).Evaluates counts values z :=
  have all : Expr.everything.meaning counts values = some [.everywhere] := rfl
  subscript (var holds) (and all place) selected

/-- A call has the value of its function. -/
theorem call {function : String} {arguments : List Place}
    (given : a.meaning counts values = some arguments)
    (applied : Exact.apply function arguments = some z) :
    (Expr.call function a).Evaluates counts values z := by
  show (do (Exact.apply function (← a.meaning counts values)).map fun z => [Place.single z]) = _
  rw [given]
  exact congrArg (Option.map fun z => [Place.single z]) applied

/-- The value of an expression that has one. -/
theorem value? (evaluates : a.Evaluates counts values x) : a.value? counts values = some x := by
  show (do Place.only? (← a.meaning counts values)) = _
  rw [evaluates]
  rfl

/-- The integer of an expression that is one. -/
theorem int? {n : Int} (evaluates : a.Evaluates counts values (.int n)) :
    a.int? counts values = some n := by
  show (do (← a.value? counts values).int?) = _
  rw [evaluates.value?]
  rfl

end Expr.Evaluates

namespace VariableType

variable {blank : Rat} {counts : Counts} {values : Values}

/-- A blank vector has the size that its type says. -/
theorem filled_vector {bounds : Bounds} {size : Expr} {n : Nat}
    (evaluates : size.Evaluates counts values (.int n)) :
    (vector bounds size).filled blank counts values =
      some (.vector (tabulate n fun _ => blank)) := by
  rw [← replicate_eq_tabulate]
  show (do return Exact.vector (List.replicate (← size.int? counts values).toNat blank)) = _
  rw [evaluates.int?]
  rfl

/-- A blank matrix has the sizes that its type says. -/
theorem filled_matrix {rows columns : Expr} {m n : Nat}
    (left : rows.Evaluates counts values (.int m))
    (right : columns.Evaluates counts values (.int n)) :
    (matrix rows columns).filled blank counts values =
      some (.matrix (tabulate m fun _ => tabulate n fun _ => blank)) := by
  rw [← replicate_eq_tabulate, ← replicate_eq_tabulate]
  show (do return Exact.matrix (List.replicate (← rows.int? counts values).toNat
    (List.replicate (← columns.int? counts values).toNat blank))) = _
  rw [left.int?, right.int?]
  rfl

end VariableType

namespace Statement

variable {blank : Rat} {counts : Counts} {values : Values}

/-- The first statement of a list is run before the others. -/
theorem run_ofList_cons (statement : Statement) (rest : List Statement) :
    (ofList (statement :: rest)).run blank counts values =
      (statement.run blank counts values).bind ((ofList rest).run blank counts) := rfl

/-- The statements of two lists are run one after the other. -/
theorem run_ofList_append (first second : List Statement) :
    (ofList (first ++ second)).run blank counts values =
      ((ofList first).run blank counts values).bind ((ofList second).run blank counts) := by
  induction first generalizing values with
  | nil => rfl
  | cons statement rest ih =>
    rw [List.cons_append, run_ofList_cons, run_ofList_cons]
    cases statement.run blank counts values with
    | none => rfl
    | some after => exact ih

/-- A single statement is run as it is. -/
theorem run_ofList_singleton (statement : Statement) :
    (ofList [statement]).run blank counts values = statement.run blank counts values := by
  rw [run_ofList_cons]
  cases statement.run blank counts values <;> rfl

/-- A declaration without a value leaves a variable blank. -/
theorem run_declare {type : VariableType} {v : Variable} {note : String} {x : Exact}
    (filled : type.filled blank counts values = some x) :
    (declare type v none note).run blank counts values =
      some (Function.update values v (some x)) := by
  show (do return Function.update values v (some (← type.filled blank counts values))) = _
  rw [filled]
  rfl

/-- A declaration with a value stores it. -/
theorem run_declare_value {type : VariableType} {v : Variable} {e : Expr} {note : String}
    {fresh x y : Exact} (filled : type.filled blank counts values = some fresh)
    (evaluates : e.Evaluates counts values x) (kept : fresh.keep x = some y) :
    (declare type v (some e) note).run blank counts values =
      some (Function.update values v (some y)) := by
  show (do
    let fresh ← type.filled blank counts values
    return Function.update values v (some (← fresh.keep (← e.value? counts values)))) = _
  rw [filled, evaluates.value?]
  exact congrArg (Option.bind · fun y => some (Function.update values v (some y))) kept

/-- An assignment stores the value of its expression. -/
theorem run_assign {target e : Expr} {x : Exact} (evaluates : e.Evaluates counts values x) :
    (assign target e).run blank counts values = store counts target x values := by
  show (do store counts target (← e.value? counts values) values) = _
  rw [evaluates.value?]
  rfl

/-- An addition stores the sum of what its target holds and the value of its expression. -/
theorem run_add {target e : Expr} {x : Exact} (evaluates : (target + e).Evaluates counts values x) :
    (add target e).run blank counts values = store counts target x values := by
  show (do store counts target (← (target + e).value? counts values) values) = _
  rw [evaluates.value?]
  rfl

/-- A variable is stored. -/
theorem store_var {v : Variable} {old x y : Exact} (holds : values v = some old)
    (kept : old.keep x = some y) :
    store counts v x values = some (Function.update values v (some y)) := by
  show (do return Function.update values v (some (← (← values v).keep x))) = _
  rw [holds]
  exact congrArg (Option.bind · fun y => some (Function.update values v (some y))) kept

/-- What stands at the subscripts of an array is stored. -/
theorem store_subscript {v : Variable} {place : Expr} {places : List Place} {old x y : Exact}
    (holds : values v = some old) (located : place.meaning counts values = some places)
    (updated : old.update places x = some y) :
    store counts (.subscript v place) x values = some (Function.update values v (some y)) := by
  show (do
    let places ← place.meaning counts values
    return Function.update values v (some (← (← values v).update places x))) = _
  rw [holds, located]
  exact congrArg (Option.bind · fun y => some (Function.update values v (some y))) updated

/-- An element is stored. -/
theorem store_element {v : Variable} {place : Expr} {old i x y : Exact}
    (holds : values v = some old) (located : place.Evaluates counts values i)
    (updated : old.update [.single i] x = some y) :
    store counts (Expr.element v place) x values = some (Function.update values v (some y)) :=
  store_subscript holds located updated

/-- A column is stored. -/
theorem store_column {v : Variable} {place : Expr} {old i x y : Exact}
    (holds : values v = some old) (located : place.Evaluates counts values i)
    (updated : old.update [.everywhere, .single i] x = some y) :
    store counts (Expr.column v place) x values = some (Function.update values v (some y)) :=
  have all : Expr.everything.meaning counts values = some [.everywhere] := rfl
  store_subscript holds (Expr.Evaluates.and all located) updated

/-- A loop is run by the values after each of its rounds. -/
theorem run_forEach {counter : Counter} {last : Expr} {body : Statement} {n : Nat}
    (evaluates : last.Evaluates counts values (.int n)) (after : Nat → Values)
    (start : after 0 = values)
    (round : ∀ k < n, body.run blank (Function.update counts counter (some ((k + 1 : Nat) : Int)))
      (after k) = some (after (k + 1))) :
    (forEach counter last body).run blank counts values = some (after n) := by
  -- After some rounds the values are those given for them.
  have rounds : ∀ m ≤ n, (List.range m).foldlM (fun values k =>
      body.run blank (Function.update counts counter (some ((k + 1 : Nat) : Int))) values) values =
        some (after m) := by
    intro m
    induction m with
    | zero => exact fun _ => congrArg some start.symm
    | succ m ih =>
      intro below
      rw [List.range_succ, List.foldlM_append, ih (Nat.le_of_succ_le below)]
      have last := round m below
      simpa using last
  show (do
    let n ← last.int? counts values
    (List.range n.toNat).foldlM (fun values k =>
      body.run blank (Function.update counts counter (some ((k + 1 : Nat) : Int))) values)
      values) = _
  rw [evaluates.int?]
  exact rounds n le_rfl

/-- Values that take those of others at some targets. -/
def overwrite (values : Values) (targets : List Variable) (other : Variable → Exact) : Values :=
  fun v => if v ∈ targets then some (other v) else values v

/-- Statements each of which sets one variable to its place among other values. -/
theorem run_each {α : Type} {items : List α} {statement : α → Statement} {target : α → Variable}
    {other : Variable → Exact}
    (step : ∀ item ∈ items, ∀ targets ⊆ items.map target,
      (statement item).run blank counts (overwrite values targets other) =
        some (Function.update (overwrite values targets other) (target item)
          (some (other (target item))))) :
    (ofList (items.map statement)).run blank counts values =
      some (overwrite values (items.map target) other) := by
  induction items using List.reverseRecOn with
  | nil =>
    have none : overwrite values [] other = values := by
      funext v
      simp [overwrite]
    rw [List.map_nil, List.map_nil, none]
    rfl
  | append_singleton before item ih =>
    have earlier := ih fun first mem targets within =>
      step first (List.mem_append_left _ mem) targets fun v there => by
        rw [List.map_append]
        exact List.mem_append_left _ (within there)
    rw [List.map_append, List.map_singleton, run_ofList_append, earlier, Option.bind_some,
      run_ofList_singleton, step item (by simp) _ (by simp)]
    congr 1
    funext v
    by_cases here : v = target item
    · subst here
      simp [overwrite]
    · rw [Function.update_of_ne here]
      simp [overwrite, here]

end Statement

end Multilevel
