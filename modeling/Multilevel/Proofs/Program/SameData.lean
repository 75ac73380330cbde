import Multilevel.Program.BuildData
import Multilevel.Proofs.Entries
import Multilevel.Proofs.Number.Alike
import Multilevel.Proofs.Outcome
import Multilevel.Proofs.Value.Equal

/-!
# Data that compare equal

Data agree that hold the same integers and, place by place, numbers that count as the same. A
comparison of such data finds them equal exactly if none of their numbers is no number
(`BuildData.same_of_areAlike`): what is no number counts as the same where cells are compared, but
is not equal to itself where arrays are.
-/
namespace Multilevel

open Number (Alike)

namespace Value

/-- The array that a list of values is none of which is a list. -/
theorem cells_leaves {values : List Value} (single : ∀ v ∈ values, v.cells = .ok ⟨[], [v]⟩) :
    (list values).cells = .ok ⟨[values.length], values⟩ := by
  have items : cellsOfItems values = .ok (values.map fun v => ⟨[], [v]⟩) := by
    induction values with
    | nil => rfl
    | cons v rest ih =>
      obtain ⟨first, others⟩ := List.forall_mem_cons.mp single
      rw [cellsOfItems, ih others, first]
      rfl
  rw [cells, items]
  cases values with
  | nil => rfl
  | cons v rest => simp [bind, Except.bind, List.flatMap_map]

/-- The array that a list of numbers is. -/
theorem cells_floats (values : List Float) :
    (list (values.map float)).cells = .ok ⟨[values.length], values.map float⟩ := by
  rw [cells_leaves, List.length_map]
  intro v mem
  obtain ⟨x, _, rfl⟩ := List.mem_map.mp mem
  rfl

/-- The array that a list of integers is. -/
theorem cells_ints (values : List Int) :
    (list (values.map int)).cells = .ok ⟨[values.length], values.map int⟩ := by
  rw [cells_leaves, List.length_map]
  intro v mem
  obtain ⟨n, _, rfl⟩ := List.mem_map.mp mem
  rfl

/-- The array that a list of rows of one length is. -/
theorem cells_rows {rows : List (List Float)} {width : Nat}
    (even : ∀ row ∈ rows, row.length = width) :
    (list (rows.map fun row => list (row.map float))).cells =
      .ok ⟨if rows.isEmpty then [0] else [rows.length, width], rows.flatten.map float⟩ := by
  have items : cellsOfItems (rows.map fun row => list (row.map float)) =
      .ok (rows.map fun row => ⟨[width], row.map float⟩) := by
    induction rows with
    | nil => rfl
    | cons row rest ih =>
      obtain ⟨first, others⟩ := List.forall_mem_cons.mp even
      rw [List.map_cons, cellsOfItems, ih others, cells_floats, first]
      rfl
  rw [cells, items]
  cases rows with
  | nil => rfl
  | cons row rest => simp [bind, Except.bind, List.map_flatten, List.flatMap_def, Function.comp_def]

/-- Only texts make texts of what is stored beside them. -/
theorem exists_text_of_leafKind {leaves : List Value} (texts : leafKind leaves = .text) :
    ∃ s, text s ∈ leaves := by
  unfold leafKind at texts
  dsimp only at texts
  split at texts
  · cases texts
  · split at texts
    · rename_i found
      obtain ⟨v, mem, is⟩ := List.any_eq_true.mp found
      cases v with
      | text s => exact ⟨s, mem⟩
      | _ => cases is
    · split at texts
      · cases texts
      · split at texts <;> cases texts

/-- Numbers are not stored as texts among each other. -/
theorem leafKind_floats (values : List Float) : leafKind (values.map float) ≠ .text := by
  intro texts
  obtain ⟨s, mem⟩ := exists_text_of_leafKind texts
  obtain ⟨x, _, same⟩ := List.mem_map.mp mem
  cases same

/-- A single integer is stored as an integer, or as it is. -/
theorem leafKind_whole (w : Whole) :
    leafKind [w.value] = .whole ∨ leafKind [w.value] = .loose := by
  cases w with
  | truth b => exact .inl rfl
  | int n =>
    have apart : (Number.isWord n && Number.isHighWord n) = false := by
      simp only [Number.isWord, Number.isHighWord, Bool.and_eq_false_iff, decide_eq_false_iff_not]
      omega
    cases loose : isLoose (int n) <;> simp [leafKind, Whole.value, loose, apart]

/-- A number is stored as it is, unless as a text. -/
theorem stored_float {kind : LeafKind} (other : kind ≠ .text) (x : Float) :
    stored kind (float x) = float x := by
  cases kind <;> first | rfl | exact absurd rfl other

/-- Storing values beside others makes no texts of them. -/
theorem LeafKind.beside_ne {kind : LeafKind} (numbers : kind ≠ .text) (other : LeafKind) :
    kind.beside other ≠ .text := by
  unfold beside
  split
  · exact nofun
  · exact numbers

/-- Numbers that count as the same are equal if none of them is no number. -/
theorem equalItems_floats {u v : List Float} (alike : List.Forall₂ Alike u v) :
    equalItems (u.map float) (v.map float) = !v.any Float.isNaN := by
  induction alike with
  | nil => rfl
  | cons first _ ih =>
    rw [List.map_cons, List.map_cons, equalItems, ih, List.any_cons, Bool.not_or]
    exact congrArg (· && _) first.beq_eq

/-- Arrays of numbers that count as the same are equal if none of them is no number. -/
theorem sameArray_floats {a b : Value} {shape : List Nat} {u v : List Float}
    (left : a.cells = .ok ⟨shape, u.map float⟩) (right : b.cells = .ok ⟨shape, v.map float⟩)
    (alike : List.Forall₂ Alike u v) : a.sameArray b = .ok !v.any Float.isNaN := by
  have plain (values : List Float) (other : LeafKind) :
      (values.map float).map (stored ((leafKind (values.map float)).beside other)) =
        values.map float := by
    rw [List.map_map]
    exact List.map_congr_left fun x _ =>
      stored_float (LeafKind.beside_ne (leafKind_floats values) other) x
  simp only [sameArray, left, right, bind, Except.bind, pure, Except.pure, plain, beq_self_eq_true,
    Bool.true_and, equalItems_floats alike]

/-- An array of integers is the same as itself. -/
theorem sameArray_ints (values : List Int) :
    (list (values.map int)).sameArray (list (values.map int)) = .ok true := by
  refine sameArray_self (cells_ints values) fun leaf mem => ?_
  obtain ⟨n, _, rfl⟩ := List.mem_map.mp mem
  exact beq_self_eq_true n

/-- Integer arguments that count as the same integer are the same as arrays. -/
theorem sameArray_whole {m n : Whole} (same : m.toInt = n.toInt) :
    m.value.sameArray n.value = .ok true := by
  have single (w : Whole) : w.value.cells = .ok ⟨[], [w.value]⟩ := by cases w <;> rfl
  have plain (w : Whole) (other : Whole) :
      stored ((leafKind [w.value]).beside (leafKind [other.value])) w.value = w.value := by
    rcases leafKind_whole w with kind | kind <;> rcases leafKind_whole other with kind' | kind' <;>
      rw [kind, kind'] <;> cases w <;> rfl
  have equal : m.value.equal n.value = true := by
    cases m <;> cases n <;>
      simp_all [Whole.value, Whole.toInt, Value.equal, sameNumber, integer?]
  simp only [sameArray, single, bind, Except.bind, pure, Except.pure, List.map_cons, List.map_nil,
    plain, equalItems, equal, beq_self_eq_true, Bool.and_self]

/-- Whether two values are the same array. -/
def AreSame (u v : Value) : Prop := u.sameArray v = .ok true

/-- A value that is stored as nothing is nothing. -/
theorem eq_null_of_stored {kind : LeafKind} {v : Value} (nothing : stored kind v = null) :
    v = null := by
  cases kind <;> cases v <;> first | rfl | cases nothing

/-- A list has at least one dimension. -/
theorem shape_ne_nil {items : List Value} {made : Cells} (done : (list items).cells = .ok made) :
    made.shape ≠ [] := by
  rw [cells, bind_eq_ok] at done
  obtain ⟨arrays, _, done⟩ := done
  split at done
  · obtain rfl := Except.ok.inj done
    exact List.cons_ne_nil _ _
  · split at done
    · obtain rfl := Except.ok.inj done
      exact List.cons_ne_nil _ _
    · cases done

/-- Only nothing equals nothing. -/
theorem equal_null {v : Value} :
    (null.equal v = true ↔ v = null) ∧ (v.equal null = true ↔ v = null) := by
  cases v <;> simp [equal, sameNumber, integer?]

/-- The array of a value without dimensions holds the value. -/
theorem cells_of_shape_nil {v : Value} {made : Cells} (done : v.cells = .ok made)
    (single : made.shape = []) : made.leaves = [v] := by
  cases v with
  | list => exact absurd single (shape_ne_nil done)
  | _ =>
    obtain rfl := Except.ok.inj done
    rfl

/-- Only nothing is the same array as nothing. -/
theorem AreSame.null_iff {u v : Value} (same : AreSame u v) : u = null ↔ v = null := by
  simp only [AreSame, sameArray, bind_eq_ok, pure_eq_ok, Bool.and_eq_true, beq_iff_eq] at same
  obtain ⟨x, left, y, right, shape, items⟩ := same
  have stored_null (kind : LeafKind) : stored kind null = null := by cases kind <;> rfl
  constructor
  · rintro rfl
    obtain rfl := Except.ok.inj left
    rw [cells_of_shape_nil right shape.symm] at items
    simp only [List.map_cons, List.map_nil, equalItems, Bool.and_true, stored_null] at items
    exact eq_null_of_stored (equal_null.1.mp items)
  · rintro rfl
    obtain rfl := Except.ok.inj right
    rw [cells_of_shape_nil left shape] at items
    simp only [List.map_cons, List.map_nil, equalItems, Bool.and_true, stored_null] at items
    exact eq_null_of_stored (equal_null.2.mp items)

end Value

namespace Datum

/-- How data agree. The user's values agree if they compare equal. -/
inductive Agrees : Datum → Datum → Prop where
  | whole {m n : Whole} (same : m.toInt = n.toInt) : Agrees (.whole m) (.whole n)
  | ints (values) : Agrees (.ints values) (.ints values)
  | reals {u v} (same : List.Forall₂ Alike u v) : Agrees (.reals u) (.reals v)
  | matrix {u v} (width : Nat) (even : ∀ row ∈ u, row.length = width)
    (same : List.Forall₂ (List.Forall₂ Alike) u v) : Agrees (.matrix u) (.matrix v)
  | loose {u v : Value} (same : u.AreSame v) : Agrees (.loose u) (.loose v)

/-- Whether a number of a datum is none. -/
def hasNaN : Datum → Bool
  | reals values => values.any Float.isNaN
  | matrix rows => rows.any fun row => row.any Float.isNaN
  | _ => false

/-- Data that agree compare equal exactly if all of their numbers are numbers. -/
theorem same_of_agrees {a b : Datum} (agree : a.Agrees b) : a.same b = .ok !b.hasNaN := by
  cases agree with
  | whole same => exact Value.sameArray_whole same
  | ints values => exact Value.sameArray_ints values
  | @reals u v same =>
    have count := same.length_eq
    exact Value.sameArray_floats (Value.cells_floats u) (count ▸ Value.cells_floats v) same
  | @matrix u v width even same =>
    have even' : ∀ row ∈ v, row.length = width := by
      intro row mem
      obtain ⟨other, inside, alike⟩ := exists_mem_of_forall₂ same.flip mem
      rw [← even other inside]
      exact alike.length_eq.symm
    have shape : (if u.isEmpty then [0] else [u.length, width]) =
        if v.isEmpty then [0] else [v.length, width] := by
      cases same with
      | nil => rfl
      | cons _ rest => simp [rest.length_eq]
    have equal := Value.sameArray_floats (Value.cells_rows even) (shape ▸ Value.cells_rows even')
      (List.rel_flatten same)
    rwa [List.any_flatten] at equal
  | loose same => exact same

end Datum

namespace BuildData

/-- Whether two lists hold data that agree under the same names in the same order. -/
def AreAlike {κ : Type} (x y : List (κ × Datum)) : Prop :=
  Entries.Related Datum.Agrees x y

/-- Data sets that agree compare equal exactly if all of their numbers are numbers. -/
theorem same_of_areAlike {x y : BuildData} (agree : AreAlike x y) :
    x.same y = .ok !(y.any fun entry => entry.2.hasNaN) := by
  rw [BuildData.same, if_pos agree.keys.symm]
  unfold AreAlike Entries.Related at agree
  induction agree with
  | nil => rfl
  | @cons first second _ _ each _ ih =>
    obtain ⟨name, a⟩ := first
    obtain ⟨name', b⟩ := second
    rw [sameValues, Datum.same_of_agrees each.2, List.any_cons]
    cases b.hasNaN with
    | true => rfl
    | false => simpa [bind, Except.bind] using ih

end BuildData

end Multilevel
