import Mathlib
import Multilevel.Proofs.Entries
import Multilevel.Proofs.Outcome
import Multilevel.Terms.Design

/-!
# Columns of design matrices

Every column of a design matrix is the product of what the variables of one term contribute, under
the joint label (`Design.of_mem_matrix`). A design without a constant that has a term has a column
(`Design.columnsOf_ne_nil`): either the first term of a single variable is coded in full, or a term
of fewest variables is.
-/
namespace Multilevel

variable {α : Type} {rows : Nat}

namespace Predictor

/-- What a variable contributes to a column: its numbers, or the indicators of one of its levels. -/
inductive Contributes [OfNat α 0] [OfNat α 1] :
    Predictor α rows → Option String → Vector α rows → Prop where
  | number (cells : Vector α rows) : Contributes (.numeric cells) none cells
  | level {levels : List String} (codes : Vector (Option (Fin levels.length)) rows)
    (level : Fin levels.length) :
    Contributes (.factor levels codes) (some (levels.get level)) (indicators codes level)

variable [OfNat α 0] [OfNat α 1]

/-- Every column that a variable contributes is labelled by its name and its level. -/
theorem of_mem_columns {predictor : Predictor α rows} {name : String} {full : Bool}
    {column : DesignColumn α rows} (mem : column ∈ predictor.columns name full) :
    ∃ level : Option String, column.label = name ++ level.getD "" ∧
      predictor.Contributes level column.cells := by
  cases predictor with
  | numeric cells =>
    obtain rfl := List.mem_singleton.mp mem
    exact ⟨none, by simp, .number cells⟩
  | factor levels codes =>
    have listed : column ∈ (List.finRange levels.length).map fun level =>
        (⟨name ++ levels.get level, indicators codes level⟩ : DesignColumn α rows) := by
      rw [columns] at mem
      split at mem
      · exact mem
      · exact List.mem_of_mem_tail mem
    obtain ⟨level, _, rfl⟩ := List.mem_map.mp listed
    exact ⟨some (levels.get level), rfl, .level codes level⟩

/-- A variable coded in full contributes a column, if it has a level in case it is a factor. -/
theorem columns_ne_nil {predictor : Predictor α rows}
    (levels : ∀ levels codes, predictor = .factor levels codes → levels ≠ []) (name : String)
    {full : Bool} (coded : predictor.isFactor = true → full = true) :
    predictor.columns name full ≠ [] := by
  cases predictor with
  | numeric cells => simp [columns]
  | factor names codes =>
    have some := levels names codes rfl
    simpa [columns, coded rfl] using some

end Predictor

namespace DesignColumn

variable [Mul α] [OfNat α 1]

/-- The product of columns with a constant one, under the joint label. -/
def product (factors : List (DesignColumn α rows)) : DesignColumn α rows :=
  factors.foldl times (ones "")

/-- One factor more multiplies the product. -/
theorem product_append (factors : List (DesignColumn α rows)) (last : DesignColumn α rows) :
    product (factors ++ [last]) = (product factors).times last := by
  rw [product, List.foldl_append]
  rfl

/-- The label of a product of labelled columns joins their labels. -/
theorem product_label {factors : List (DesignColumn α rows)}
    (labelled : ∀ column ∈ factors, column.label ≠ "") :
    (product factors).label = ":".intercalate (factors.map label) := by
  induction factors using List.reverseRecOn with
  | nil => rfl
  | append_singleton before last ih =>
    have inner := ih fun column mem => labelled column (by simp [mem])
    rw [product_append, times, inner, List.map_append]
    by_cases first : before = []
    · simp [first]
    · have named : ":".intercalate (before.map label) ≠ "" := by
        obtain ⟨head, tail, rfl⟩ := List.exists_cons_of_ne_nil first
        have present := labelled head (by simp)
        cases tail <;> simp [present]
      rw [if_neg (by simpa using named), List.map_singleton,
        String.intercalate_append_of_ne_nil (by simpa using first) (by simp),
        String.intercalate_singleton]

/-- The cells of a product are the products of the cells. -/
theorem product_cells (factors : List (DesignColumn α rows)) (row : Fin rows) :
    (product factors).cells.get row =
      (factors.map fun column => column.cells.get row).foldl (· * ·) 1 := by
  induction factors using List.reverseRecOn with
  | nil => simp [product, ones]
  | append_singleton before last ih =>
    rw [product_append, List.map_append, List.foldl_append, ← ih]
    simp [times, Vector.get_eq_getElem]

end DesignColumn

namespace Design

variable {find : Predictors α rows}

/-- Coding a term keeps its variables. -/
theorem coding_eq_ok {all : List Term} {constant after : Bool} {term : Term}
    {choices : List (String × Bool)}
    (done : coding find all constant term = .ok (choices, after)) :
    choices.map Prod.fst = term.names := by
  unfold coding at done
  split at done
  · rename_i name single
    split at done
    · obtain ⟨rfl, rfl⟩ := Prod.mk.inj (Except.ok.inj done)
      exact single.symm
    · simp only [bind_eq_ok, pure_eq_ok] at done
      obtain ⟨_, _, made⟩ := done
      obtain ⟨rfl, rfl⟩ := Prod.mk.inj made
      exact single.symm
  · obtain ⟨rfl, rfl⟩ := Prod.mk.inj (Except.ok.inj done)
    simp [Function.comp_def]

variable [Mul α] [OfNat α 0] [OfNat α 1]

/-- A column as the product of what the named variables contribute. -/
def IsProduct (find : Predictors α rows) (names : List String) (column : DesignColumn α rows) :
    Prop :=
  ∃ factors : List (DesignColumn α rows), column = .product factors ∧
    List.Forall₂ (fun name factor => ∃ predictor level, find name = .ok predictor ∧
      factor.label = name ++ level.getD "" ∧ predictor.Contributes level factor.cells)
      names factors

/-- Every column of a term is a product over its variables. -/
theorem termColumns_eq_ok {choices : List (String × Bool)} {columns : List (DesignColumn α rows)}
    (done : termColumns find choices = .ok columns) :
    ∀ column ∈ columns, IsProduct find (choices.map Prod.fst) column := by
  refine foldlM_spec (fun before columns => ∀ column ∈ columns,
    IsProduct find (before.map Prod.fst) column) ?_ [] choices ?_ done
  · rintro before ⟨name, full⟩ columns next product step column mem
    dsimp only at step
    split at step
    · obtain rfl := Except.ok.inj step
      cases mem
    · simp only [bind_eq_ok, pure_eq_ok] at step
      obtain ⟨predictor, found, rfl⟩ := step
      simp only [List.mem_flatMap, List.mem_map] at mem
      obtain ⟨earlier, inside, last, own, rfl⟩ := mem
      obtain ⟨factors, rfl, all⟩ := product earlier inside
      obtain ⟨level, label, contributes⟩ := Predictor.of_mem_columns own
      refine ⟨factors ++ [last], (DesignColumn.product_append factors last).symm, ?_⟩
      rw [List.map_append]
      exact List.rel_append all (.cons ⟨predictor, level, found, label, contributes⟩ .nil)
  · intro column mem
    obtain rfl := List.mem_singleton.mp mem
    exact ⟨[], rfl, .nil⟩

/-- A term whose variables are coded in full has a column. -/
theorem termColumns_ne_nil {choices : List (String × Bool)} {columns : List (DesignColumn α rows)}
    (done : termColumns find choices = .ok columns)
    (covered : ∀ choice ∈ choices, ∀ predictor, find choice.1 = .ok predictor →
      predictor.columns choice.1 choice.2 ≠ []) : columns ≠ [] := by
  refine foldlM_spec (fun (before : List (String × Bool)) columns => (∀ choice ∈ before,
    ∀ predictor, find choice.1 = .ok predictor → predictor.columns choice.1 choice.2 ≠ []) →
      columns ≠ []) ?_ [] choices (fun _ => List.cons_ne_nil _ _) done covered
  intro before choice columns next reached step covered
  have some := reached fun other mem => covered other (by simp [mem])
  simp only [List.isEmpty_iff, some, ↓reduceIte, bind_eq_ok, pure_eq_ok] at step
  obtain ⟨predictor, found, rfl⟩ := step
  have own := covered choice (by simp) predictor found
  obtain ⟨first, mem⟩ := List.exists_mem_of_ne_nil _ some
  obtain ⟨second, inside⟩ := List.exists_mem_of_ne_nil _ own
  exact List.ne_nil_of_mem
    (List.mem_flatMap.mpr ⟨first, mem, List.mem_map.mpr ⟨second, inside, rfl⟩⟩)

/-- The columns of terms are those of the first one, then those of the others. -/
theorem columnsOf_cons_eq_ok {all rest : List Term} {constant : Bool} {term : Term}
    {columns : List (DesignColumn α rows)}
    (done : columnsOf find all constant (term :: rest) = .ok columns) :
    ∃ choices after own others, coding find all constant term = .ok (choices, after) ∧
      termColumns find choices = .ok own ∧ columnsOf find all after rest = .ok others ∧
      columns = own ++ others := by
  simp only [columnsOf, bind_eq_ok, pure_eq_ok] at done
  obtain ⟨⟨choices, after⟩, coded, own, made, others, rest, rfl⟩ := done
  exact ⟨choices, after, own, others, coded, made, rest, rfl⟩

/-- Every column is the product over the variables of one term. -/
theorem of_mem_columnsOf {all terms : List Term} {constant : Bool}
    {columns : List (DesignColumn α rows)} (done : columnsOf find all constant terms = .ok columns)
    {column : DesignColumn α rows} (mem : column ∈ columns) :
    ∃ term ∈ terms, IsProduct find term.names column := by
  induction terms generalizing constant columns with
  | nil =>
    obtain rfl := Except.ok.inj done
    cases mem
  | cons term rest ih =>
    obtain ⟨choices, after, own, others, coded, made, remaining, rfl⟩ := columnsOf_cons_eq_ok done
    rcases List.mem_append.mp mem with here | later
    · have product := termColumns_eq_ok made column here
      rw [coding_eq_ok coded] at product
      exact ⟨term, List.mem_cons_self, product⟩
    · obtain ⟨other, inside, product⟩ := ih remaining later
      exact ⟨other, List.mem_cons_of_mem _ inside, product⟩

/-- Whether every factor that is found has a level. -/
def HasLevels (find : Predictors α rows) : Prop :=
  ∀ name levels codes, find name = .ok (.factor levels codes) → levels ≠ []

/-- While no constant is accounted for, a term of a single variable has a column. -/
theorem columnsOf_ne_nil_of_single (hasLevels : HasLevels find) {all terms : List Term}
    {columns : List (DesignColumn α rows)} (single : ∃ term ∈ terms, term.names.length = 1)
    (done : columnsOf find all false terms = .ok columns) : columns ≠ [] := by
  induction terms generalizing columns with
  | nil => simp at single
  | cons term rest ih =>
    obtain ⟨choices, after, own, others, coded, made, remaining, rfl⟩ := columnsOf_cons_eq_ok done
    unfold coding at coded
    split at coded
    · -- The first term of a single variable is coded in full if that is a factor.
      rename_i name _
      simp only [Bool.false_eq_true, ↓reduceIte, bind_eq_ok, pure_eq_ok] at coded
      obtain ⟨predictor, found, coded⟩ := coded
      obtain ⟨rfl, rfl⟩ := Prod.mk.inj coded
      refine List.append_ne_nil_of_left_ne_nil (termColumns_ne_nil made ?_) _
      intro choice mem other same
      obtain rfl := List.mem_singleton.mp mem
      obtain rfl := Except.ok.inj (found.symm.trans same)
      exact Predictor.columns_ne_nil (fun levels codes kind => hasLevels name levels codes
        (kind ▸ found)) name id
    · -- An interaction leaves the constant as it was.
      rename_i several
      obtain ⟨rfl, rfl⟩ := Prod.mk.inj (Except.ok.inj coded)
      refine List.append_ne_nil_of_right_ne_nil _ (ih ?_ remaining)
      obtain ⟨other, mem, length⟩ := single
      rcases List.mem_cons.mp mem with rfl | later
      · obtain ⟨name, only⟩ := List.length_eq_one_iff.mp length
        exact absurd only (several name)
      · exact ⟨other, later, length⟩

/-- An interaction all of whose factors are coded in full has a column. -/
theorem columnsOf_ne_nil_of_full (hasLevels : HasLevels find) {all terms : List Term}
    {constant : Bool} {columns : List (DesignColumn α rows)} {term : Term} (mem : term ∈ terms)
    (several : term.names.length ≠ 1) (full : ∀ name ∈ term.names, isFull all term name = true)
    (done : columnsOf find all constant terms = .ok columns) : columns ≠ [] := by
  induction terms generalizing constant columns with
  | nil => cases mem
  | cons first rest ih =>
    obtain ⟨choices, after, own, others, coded, made, remaining, rfl⟩ := columnsOf_cons_eq_ok done
    rcases List.mem_cons.mp mem with rfl | later
    · refine List.append_ne_nil_of_left_ne_nil (termColumns_ne_nil made ?_) _
      unfold coding at coded
      split at coded
      · rename_i name only
        exact absurd (by rw [only]; rfl) several
      · obtain ⟨rfl, rfl⟩ := Prod.mk.inj (Except.ok.inj coded)
        intro choice inside predictor found
        obtain ⟨name, named, rfl⟩ := List.mem_map.mp inside
        exact Predictor.columns_ne_nil (fun levels codes kind => hasLevels name levels codes
          (kind ▸ found)) name fun _ => full name named
    · exact List.append_ne_nil_of_right_ne_nil _ (ih later remaining)

/-- If the interaction without a variable is a term, then that is a smaller term with the other
variables. -/
theorem exists_smaller {terms : List Term} {term : Term} {name : String}
    (dropped : isFull terms term name = false) :
    ∃ other ∈ terms, other.names.toFinset = term.names.toFinset.erase name := by
  rw [isFull, Bool.not_eq_false', List.any_eq_true] at dropped
  obtain ⟨other, mem, same⟩ := dropped
  simp only [sameNames, Bool.and_eq_true, List.all_eq_true, List.contains_iff_mem] at same
  refine ⟨other, mem, Finset.ext fun kept => ?_⟩
  rw [List.mem_toFinset, Finset.mem_erase, List.mem_toFinset]
  constructor
  · intro here
    have left := List.mem_filter.mp (same.1 kept here)
    exact ⟨by simpa using left.2, left.1⟩
  · rintro ⟨differs, here⟩
    exact same.2 kept (List.mem_filter.mpr ⟨here, by simpa using differs⟩)

/-- A term of fewest variables has all of its factors coded in full. -/
theorem exists_isFull {terms : List Term} (nonempty : terms ≠ []) :
    ∃ term ∈ terms, ∀ name ∈ term.names, isFull terms term name = true := by
  obtain ⟨term, mem, fewest⟩ := terms.toFinset.exists_min_image
    (fun term : Term => term.names.toFinset.card) ((List.toFinset_nonempty_iff terms).mpr nonempty)
  refine ⟨term, List.mem_toFinset.mp mem, fun name inside => ?_⟩
  by_contra dropped
  obtain ⟨other, there, without⟩ := exists_smaller (Bool.eq_false_iff.mpr dropped)
  have fewer := Finset.card_erase_lt_of_mem (List.mem_toFinset.mpr inside)
  have least := fewest other (List.mem_toFinset.mpr there)
  rw [without] at least
  omega

/-- Terms that no constant accompanies have a column. -/
theorem columnsOf_ne_nil (hasLevels : HasLevels find) {terms : List Term}
    {columns : List (DesignColumn α rows)} (nonempty : terms ≠ [])
    (done : columnsOf find terms false terms = .ok columns) : columns ≠ [] := by
  by_cases single : ∃ term ∈ terms, term.names.length = 1
  · exact columnsOf_ne_nil_of_single hasLevels single done
  · obtain ⟨term, mem, full⟩ := exists_isFull nonempty
    exact columnsOf_ne_nil_of_full hasLevels mem (fun one => single ⟨term, mem, one⟩) full done

/-- The columns of a design and their labels. -/
theorem matrix_eq_ok {intercept : Bool} {terms : List Term} {columns : List (DesignColumn α rows)}
    (done : matrix find intercept terms = .ok columns) :
    columnsOf find terms intercept terms = .ok columns ∧
      (columns.map DesignColumn.label).Nodup := by
  simp only [matrix, ↓refuse_bind, bind_eq_ok, liftM_eq_mapError, mapError_eq_ok,
    ite_refuse_eq_ok, pure_eq_ok, ne_eq, not_not] at done
  obtain ⟨_, made, distinct, rfl⟩ := done
  exact ⟨made, length_eraseDups_eq_iff.mp distinct⟩

/-- Every column of a design is the product over the variables of one term. -/
theorem of_mem_matrix {intercept : Bool} {terms : List Term} {columns : List (DesignColumn α rows)}
    (done : matrix find intercept terms = .ok columns) {column : DesignColumn α rows}
    (mem : column ∈ columns) : ∃ term ∈ terms, IsProduct find term.names column :=
  of_mem_columnsOf (matrix_eq_ok done).1 mem

/-- The design of a group-level term has a column. -/
theorem groupMatrix_ne_nil (hasLevels : HasLevels find) {term : GroupTerm}
    {columns : List (DesignColumn α rows)} (effects : term.intercept = true ∨ term.terms ≠ [])
    (done : groupMatrix find term = .ok columns) : columns ≠ [] := by
  simp only [groupMatrix, bind_eq_ok, pure_eq_ok] at done
  obtain ⟨slopes, made, rfl⟩ := done
  cases kept : term.intercept with
  | true => simp
  | false =>
    have nonempty : term.terms ≠ [] := effects.resolve_left (by simp [kept])
    rw [kept] at made
    simpa using columnsOf_ne_nil hasLevels nonempty (matrix_eq_ok made).1

end Design

end Multilevel
