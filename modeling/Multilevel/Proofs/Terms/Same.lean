import Multilevel.Proofs.Data.Same
import Multilevel.Proofs.Terms.LevelOrder
import Multilevel.Proofs.Terms.Related

/-!
# Designs of tables that compare equal

Where two tables list the levels of factors in the same order, their variables contribute the same
to a design, but for the signs of zeros: the designs have the same labels, the same coding and
numbers that count as the same (`Design.matrix_alike`).
-/
namespace Multilevel

variable {rows : Nat}

/-- Whether two columns of a design have one label and numbers that count as the same. -/
structure DesignColumn.Alike (x y : DesignColumn Float rows) : Prop where
  /-- The labels are equal. -/
  label : x.label = y.label
  /-- The numbers count as the same. -/
  cells : ∀ row, Number.Alike (x.cells.get row) (y.cells.get row)

/-- Whether two variables contribute the same: numbers that count as the same, or one factor. -/
inductive Predictor.Alike : Predictor Float rows → Predictor Float rows → Prop where
  | numeric {u v} (cells : ∀ row, Number.Alike (u.get row) (v.get row)) :
    Alike (.numeric u) (.numeric v)
  | factor (levels codes) : Alike (.factor levels codes) (.factor levels codes)

/-- Whether two vectors hold numbers that count as the same. -/
def VectorsAlike (u v : Vector Float rows) : Prop :=
  ∀ row, Number.Alike (u.get row) (v.get row)

/-- Variables that contribute the same are related by their numbers. -/
theorem Predictor.Alike.related {p q : Predictor Float rows} (alike : p.Alike q) :
    p.Related VectorsAlike q := by
  cases alike with
  | numeric cells => exact .numeric cells
  | factor => exact .factor fun _ _ => .refl _

namespace Design

variable {find find' : Predictors Float rows} {terms : List Term}

/-- Products of numbers that count as the same do so. -/
theorem isKept_vectorsAlike : IsKept (@VectorsAlike rows) where
  ones _ := .refl _
  times left right row := by
    simpa [Vector.get_eq_getElem] using (left row).mul (right row)

/-- Whether variables of some names contribute the same. -/
def FindAlike (find find' : Predictors Float rows) (names : List String) : Prop :=
  ∀ name ∈ names, EndAlike Predictor.Alike (find name) (find' name)

/-- Variables that contribute the same are related by their numbers. -/
theorem FindAlike.related {names : List String} (found : FindAlike find find' names) :
    AreRelated VectorsAlike find find' names :=
  fun name mem => (found name mem).imp fun _ _ same => same.related

/-- Columns with related numbers are alike. -/
theorem alike_of_related {xs ys : List (DesignColumn Float rows)}
    (each : List.Forall₂ (DesignColumn.Related VectorsAlike) xs ys) :
    List.Forall₂ DesignColumn.Alike xs ys :=
  each.imp fun _ _ same => ⟨same.label, same.cells⟩

/-- Variables that contribute the same make designs that are alike. -/
theorem matrix_alike {intercept : Bool}
    (found : FindAlike find find' (terms.flatMap Term.names)) :
    EndAlike (List.Forall₂ DesignColumn.Alike) (matrix find intercept terms)
      (matrix find' intercept terms) :=
  (matrix_related isKept_vectorsAlike found.related).imp fun _ _ => alike_of_related

/-- Variables that contribute the same make designs of group-level terms that are alike. -/
theorem groupMatrix_alike {term : GroupTerm}
    (found : FindAlike find find' (term.terms.flatMap Term.names)) :
    EndAlike (List.Forall₂ DesignColumn.Alike) (groupMatrix find term)
      (groupMatrix find' term) :=
  (groupMatrix_related isKept_vectorsAlike found.related).imp fun _ _ => alike_of_related

end Design

/-- A column of numbers contributes them. -/
theorem Column.predictor_of_isNumeric {x : Column rows} (numeric : x.isNumeric = true) :
    x.predictor = (return .numeric (← x.numbers)) := by
  cases x <;> first | rfl | cases numeric

namespace Frame

/-- The levels of the column of a name; none if it is no factor, or if there is none. -/
def levelsOf? (frame : Frame) (name : String) : Option (List String) :=
  (frame.column? name).bind Column.levels?

/-- The levels that a design sees are those of the columns. -/
theorem hasKinds_levelsOf? (frame : Frame) : Design.HasKinds frame.predictors frame.levelsOf? := by
  intro name predictor found
  simp only [predictors, bind_eq_ok, column_eq_ok] at found
  obtain ⟨column, here, made⟩ := found
  rw [levelsOf?, here, Option.bind_some]
  unfold Column.predictor at made
  split at made
  · obtain rfl := Except.ok.inj made
    rfl
  · rename_i other
    obtain ⟨cells, _, rfl⟩ := map_eq_ok.mp made
    cases column with
    | factor levels codes => exact absurd rfl (other levels codes)
    | _ => rfl

variable {columns columns' : List (String × Column rows)}

/-- In tables that compare equal, columns with the same levels in the same order are numbers that
agree, or the same factor. -/
theorem column_cases (agree : ColumnsAgree columns columns') (left : IsTaken ⟨rows, columns⟩)
    (right : IsTaken ⟨rows, columns'⟩) {name : String}
    (levels : levelsOf? ⟨rows, columns⟩ name = levelsOf? ⟨rows, columns'⟩ name) :
    EndAlike (fun x y : Column rows => (x.isNumeric = true ∧ x.Agrees y) ∨
      x = y ∧ ∃ levels codes, x = .factor levels codes)
      (column ⟨rows, columns⟩ name) (column ⟨rows, columns'⟩ name) := by
  refine (agree.taken left right name).reached.imp ?_
  rintro x y ⟨⟨same, taken, _⟩, found, found'⟩
  rw [levelsOf?, levelsOf?, column_eq_ok.mp found, column_eq_ok.mp found', Option.bind_some,
    Option.bind_some] at levels
  rcases taken with numeric | ⟨own, spanned⟩
  · exact .inl ⟨numeric, same⟩
  · refine .inr ⟨same.eq_of_levels? spanned.distinct spanned.levels? (levels ▸ spanned.levels?), ?_⟩
    cases x with
    | factor _ codes => exact ⟨_, codes, rfl⟩
    | _ => cases spanned.levels?

/-- In such tables, a variable with the same levels in the same order contributes the same. -/
theorem predictors_alike (agree : ColumnsAgree columns columns') (left : IsTaken ⟨rows, columns⟩)
    (right : IsTaken ⟨rows, columns'⟩) {name : String}
    (levels : levelsOf? ⟨rows, columns⟩ name = levelsOf? ⟨rows, columns'⟩ name) :
    EndAlike Predictor.Alike (predictors ⟨rows, columns⟩ name)
      (predictors ⟨rows, columns'⟩ name) := by
  refine (column_cases agree left right levels).bind ?_
  rintro x y (⟨numeric, same⟩ | ⟨rfl, levels, codes, rfl⟩)
  · obtain ⟨u, v, made, made', cells⟩ := same.exists_numbers numeric
    rw [Column.predictor_of_isNumeric numeric, made,
      Column.predictor_of_isNumeric (same.isNumeric ▸ numeric), made']
    exact .ok (.numeric cells)
  · exact .ok (.factor levels codes)

/-- In such tables, the cells of a factor with the same levels in the same order have the same
places. -/
theorem groupIndex_endAlike (agree : ColumnsAgree columns columns') (left : IsTaken ⟨rows, columns⟩)
    (right : IsTaken ⟨rows, columns'⟩) {name : String}
    (levels : levelsOf? ⟨rows, columns⟩ name = levelsOf? ⟨rows, columns'⟩ name) :
    EndAlike Eq (groupIndex ⟨rows, columns⟩ name) (groupIndex ⟨rows, columns'⟩ name) := by
  refine (column_cases agree left right levels).bind ?_
  rintro x y (⟨numeric, same⟩ | ⟨rfl, levels, codes, rfl⟩)
  · cases same <;> first | exact .error _ | cases numeric
  · exact .ok rfl

end Frame

end Multilevel
