import Mathlib
import Multilevel.Proofs.Terms.Design

/-!
# What a design spans

The terms of a formula ask for directions: the product of the numbers of each term and, for each of
its factors, the indicators of any one level (`Design.IsDirection`). The columns of a design leave
first levels out. Main statement: they span no more than the directions that are asked for, and
just as much if each factor that leaves its first level out of an interaction does so for a term
with the same numbers, as often as they stand in the interaction (`Design.spans_asked`).
-/
namespace Multilevel

namespace Design

variable {rows : Nat}

/-- What a variable contributes to the columns of its terms: its numbers, or the indicators of one
of its levels. -/
def IsContribution (find : Predictors ℚ rows) (name : String) (u : Fin rows → ℚ) : Prop :=
  ∃ predictor level cells, find name = .ok predictor ∧ predictor.Contributes level cells ∧
    u = cells.get

/-- A direction that variables ask for: the product of what each of them contributes. -/
def IsDirection (find : Predictors ℚ rows) (names : List String) (v : Fin rows → ℚ) : Prop :=
  ∃ pick : String → Fin rows → ℚ, (∀ name ∈ names, IsContribution find name (pick name)) ∧
    v = (names.map pick).prod

/-- The space that a formula asks for: the constant, if there is one, and the directions of its
terms. -/
def askedSpace (find : Predictors ℚ rows) (intercept : Bool) (terms : List Term) :
    Submodule ℚ (Fin rows → ℚ) :=
  .span ℚ {v | intercept = true ∧ v = 1 ∨ ∃ term ∈ terms, IsDirection find term.names v}

/-- The space of the columns of a design, with the constant if there is one. -/
def columnSpace (intercept : Bool) (columns : List (DesignColumn ℚ rows)) :
    Submodule ℚ (Fin rows → ℚ) :=
  .span ℚ {v | intercept = true ∧ v = 1 ∨ ∃ column ∈ columns, v = column.cells.get}

/-- Whether each observation has a level of each factor. -/
def IsComplete (find : Predictors ℚ rows) : Prop :=
  ∀ name levels codes, find name = .ok (.factor levels codes) → ∀ row : Fin rows,
    codes.get row ≠ none

/-- Whether a factor leaves its first level out of an interaction only for a term that has the other
variables, and each number as often as the interaction. -/
def KeepsMargins (find : Predictors ℚ rows) (terms : List Term) : Prop :=
  ∀ term ∈ terms, ∀ name ∈ term.names, ∀ levels codes, find name = .ok (.factor levels codes) →
    term.names.length ≠ 1 → isFull terms term name = false →
    ∃ other ∈ terms, other.names.toFinset = term.names.toFinset.erase name ∧
      ∀ number cells, find number = .ok (.numeric cells) →
        other.names.count number = term.names.count number

/-- The condition is met where no term has a number twice. -/
theorem keepsMargins_of_count {find : Predictors ℚ rows} {terms : List Term}
    (once : ∀ term ∈ terms, ∀ number cells, find number = .ok (.numeric cells) →
      term.names.count number ≤ 1) : KeepsMargins find terms := by
  intro term mem name _ levels codes factor _ dropped
  obtain ⟨other, inside, same⟩ := exists_smaller dropped
  refine ⟨other, inside, same, fun number cells numeric => ?_⟩
  have differs : number ≠ name := by
    rintro rfl
    cases factor.symm.trans numeric
  have listed : number ∈ other.names ↔ number ∈ term.names := by
    rw [← List.mem_toFinset, same, Finset.mem_erase, List.mem_toFinset]
    simp [differs]
  have left := once other inside number cells numeric
  have right := once term mem number cells numeric
  rw [← List.count_pos_iff, ← List.count_pos_iff] at listed
  omega

section Contributions

variable {find : Predictors ℚ rows} {name : String} {u w : Fin rows → ℚ} {full : Bool}

/-- The indicators of a level, row by row. -/
theorem indicators_get {levels : List String}
    (codes : Vector (Option (Fin levels.length)) rows) (level : Fin levels.length)
    (row : Fin rows) :
    (Predictor.indicators codes level : Vector ℚ rows).get row =
      if codes.get row = some level then 1 else 0 := by
  simp [Predictor.indicators, Vector.get_eq_getElem]

/-- The indicators of the levels of a factor. -/
theorem isContribution_level {levels : List String}
    {codes : Vector (Option (Fin levels.length)) rows}
    (factor : find name = .ok (.factor levels codes)) (level : Fin levels.length) :
    IsContribution find name (Predictor.indicators codes level : Vector ℚ rows).get :=
  ⟨_, _, _, factor, .level codes level, rfl⟩

/-- What one variable contributes is the same, or apart. -/
theorem IsContribution.eq_or_mul_eq_zero (one : IsContribution find name u)
    (two : IsContribution find name w) : u = w ∨ u * w = 0 := by
  obtain ⟨predictor, _, _, found, own, rfl⟩ := one
  obtain ⟨other, _, _, again, same, rfl⟩ := two
  obtain rfl := Except.ok.inj (found.symm.trans again)
  cases own with
  | number => cases same; exact .inl rfl
  | level codes level =>
    cases same with
    | level codes second =>
      by_cases differ : level = second
      · exact .inl (differ ▸ rfl)
      · refine .inr (funext fun row => ?_)
        rw [Pi.mul_apply, indicators_get, indicators_get]
        by_cases here : codes.get row = some level
        · simp [here, differ]
        · simp [here]

/-- A power of what a factor contributes is the same again. -/
theorem IsContribution.pow {levels : List String}
    {codes : Vector (Option (Fin levels.length)) rows}
    (own : IsContribution find name u) (factor : find name = .ok (.factor levels codes))
    {k : Nat} (some : 0 < k) : u ^ k = u := by
  have idempotent : IsIdempotentElem u := by
    obtain ⟨predictor, _, _, found, own, rfl⟩ := own
    obtain rfl := Except.ok.inj (factor.symm.trans found)
    cases own with
    | level codes level =>
      refine funext fun row => ?_
      rw [Pi.mul_apply, indicators_get]
      split <;> simp
  obtain ⟨j, rfl⟩ := Nat.exists_eq_succ_of_ne_zero some.ne'
  exact idempotent.pow_succ_eq j

/-- The indicators of the levels of a factor without missing values sum to the constant. -/
theorem sum_indicators {levels : List String}
    {codes : Vector (Option (Fin levels.length)) rows} (complete : ∀ row, codes.get row ≠ none) :
    ∑ level, (Predictor.indicators codes level : Vector ℚ rows).get = 1 := by
  refine funext fun row => ?_
  obtain ⟨own, here⟩ := Option.ne_none_iff_exists'.mp (complete row)
  simp [Finset.sum_apply, indicators_get, here]

/-- Whether a variable contributes numbers to the columns of a term in which it is coded in full or
not. -/
def IsListed (find : Predictors ℚ rows) (full : Bool) (name : String) (u : Fin rows → ℚ) : Prop :=
  ∃ predictor column, find name = .ok predictor ∧ column ∈ predictor.columns name full ∧
    u = column.cells.get

/-- All levels but the first are in the tail of their list. -/
theorem mem_tail_finRange {n : Nat} {level : Fin n} :
    level ∈ (List.finRange n).tail ↔ level.val ≠ 0 := by
  cases n with
  | zero => exact level.elim0
  | succ n =>
    rw [List.finRange_succ, List.tail_cons, List.mem_map]
    constructor
    · rintro ⟨before, _, rfl⟩
      exact Nat.succ_ne_zero _
    · intro later
      exact ⟨level.pred fun first => later (congrArg Fin.val first), List.mem_finRange _,
        Fin.succ_pred _ _⟩

/-- A level that a factor does not leave out is listed. -/
theorem isListed_level {levels : List String}
    {codes : Vector (Option (Fin levels.length)) rows}
    (factor : find name = .ok (.factor levels codes)) {level : Fin levels.length}
    (kept : full = true ∨ level.val ≠ 0) :
    IsListed find full name (Predictor.indicators codes level : Vector ℚ rows).get := by
  refine ⟨_, ⟨name ++ levels.get level, Predictor.indicators codes level⟩, factor, ?_, rfl⟩
  rw [Predictor.columns]
  split
  · exact List.mem_map_of_mem (List.mem_finRange level)
  · rw [← List.map_tail]
    exact List.mem_map_of_mem (mem_tail_finRange.mpr (kept.resolve_left ‹_›))

/-- What a variable contributes is listed, or the first level of a factor that leaves it out. -/
theorem IsContribution.listed_or_first (own : IsContribution find name u) (full : Bool) :
    IsListed find full name u ∨ full = false ∧ ∃ levels codes first,
      find name = .ok (.factor levels codes) ∧
      u = (Predictor.indicators codes first : Vector ℚ rows).get ∧
      ∀ level, level ≠ first →
        IsListed find full name (Predictor.indicators codes level : Vector ℚ rows).get := by
  obtain ⟨predictor, _, _, found, own, rfl⟩ := own
  cases own with
  | number => exact .inl ⟨_, ⟨name, _⟩, found, List.mem_singleton_self _, rfl⟩
  | @level levels codes first =>
    by_cases kept : full = true ∨ first.val ≠ 0
    · exact .inl (isListed_level found kept)
    · rw [not_or, Bool.not_eq_true, not_not] at kept
      refine .inr ⟨kept.1, levels, codes, first, found, rfl, fun level differs => ?_⟩
      refine isListed_level found (.inr fun zero => differs (Fin.ext ?_))
      rw [zero, kept.2]

end Contributions

section Products

variable {find : Predictors ℚ rows} {names : List String} {pick : String → Fin rows → ℚ}

/-- A product of what variables contribute is a direction that they ask for, unless it vanishes:
what a variable contributes twice is the same or apart. -/
theorem isDirection_or_eq_zero {factors : List (Fin rows → ℚ)}
    (each : List.Forall₂ (IsContribution find) names factors) :
    IsDirection find names factors.prod ∨ factors.prod = 0 := by
  induction each with
  | nil => exact .inl ⟨fun _ => 0, by simp, rfl⟩
  | @cons name u names factors own _ ih =>
    rcases ih with ⟨pick, picked, same⟩ | zero
    · rw [List.prod_cons, same]
      by_cases again : name ∈ names
      · rcases own.eq_or_mul_eq_zero (picked name again) with rfl | apart
        · exact .inl ⟨pick, List.forall_mem_cons.mpr ⟨own, picked⟩, rfl⟩
        · obtain ⟨rest, split⟩ := List.dvd_prod (List.mem_map_of_mem (f := pick) again)
          exact .inr (by rw [split, ← mul_assoc, apart, zero_mul])
      · have others : ∀ other ∈ names, Function.update pick name u other = pick other :=
          fun other mem => Function.update_of_ne (ne_of_mem_of_not_mem mem again) _ _
        refine .inl ⟨Function.update pick name u, List.forall_mem_cons.mpr ⟨?_, ?_⟩, ?_⟩
        · rwa [Function.update_self]
        · exact fun other mem => (others other mem).symm ▸ picked other mem
        · rw [List.map_cons, List.prod_cons, Function.update_self, List.map_congr_left others]
    · exact .inr (by rw [List.prod_cons, zero, mul_zero])

/-- The product with what one variable contributes set apart. -/
theorem prod_map_eq {name : String} (mem : name ∈ names) :
    (names.map pick).prod = pick name ^ names.count name *
      ∏ other ∈ names.toFinset.erase name, pick other ^ names.count other := by
  rw [Finset.prod_list_map_count, Finset.mul_prod_erase _
    (fun other => pick other ^ names.count other) (List.mem_toFinset.mpr mem)]

/-- The product with one variable's contribution exchanged. -/
theorem prod_map_update {name : String} (mem : name ∈ names) (u : Fin rows → ℚ) :
    (names.map (Function.update pick name u)).prod = u ^ names.count name *
      ∏ other ∈ names.toFinset.erase name, pick other ^ names.count other := by
  rw [prod_map_eq mem, Function.update_self]
  congr 1
  refine Finset.prod_congr rfl fun other inside => ?_
  rw [Function.update_of_ne (Finset.ne_of_mem_erase inside)]

/-- What holds of the contributions of all variables holds after one of them is exchanged. -/
theorem forall_mem_update (holds : String → (Fin rows → ℚ) → Prop) {name : String}
    {u : Fin rows → ℚ} (own : holds name u)
    (others : ∀ other ∈ names, other ≠ name → holds other (pick other)) :
    ∀ other ∈ names, holds other (Function.update pick name u other) := by
  intro other inside
  by_cases same : other = name
  · rw [same, Function.update_self]
    exact own
  · rw [Function.update_of_ne same]
    exact others other inside same

/-- The first level of a factor is the constant without the other levels: a product with it is in a
space that holds the product of the other variables, and the products with the other levels. -/
theorem prod_mem_of_first {space : Submodule ℚ (Fin rows → ℚ)} {name : String}
    {levels : List String} {codes : Vector (Option (Fin levels.length)) rows}
    {first : Fin levels.length} (complete : IsComplete find)
    (factor : find name = .ok (.factor levels codes)) (mem : name ∈ names)
    (own : pick name = (Predictor.indicators codes first : Vector ℚ rows).get)
    (margin : ∏ other ∈ names.toFinset.erase name, pick other ^ names.count other ∈ space)
    (exchanged : ∀ level, level ≠ first →
      (names.map (Function.update pick name
        (Predictor.indicators codes level : Vector ℚ rows).get)).prod ∈ space) :
    (names.map pick).prod ∈ space := by
  have some : 0 < names.count name := List.count_pos_iff.mpr mem
  have total := sum_indicators (complete name levels codes factor)
  rw [← Finset.add_sum_erase _ _ (Finset.mem_univ first), ← eq_sub_iff_add_eq] at total
  rw [prod_map_eq mem, own, (isContribution_level factor first).pow factor some, total, sub_mul,
    one_mul, Finset.sum_mul]
  refine space.sub_mem margin (space.sum_mem fun level inside => ?_)
  have other := exchanged level (Finset.ne_of_mem_erase inside)
  rwa [prod_map_update mem, (isContribution_level factor level).pow factor some] at other

/-- A space that holds the products of what is listed, and those without a factor that leaves its
first level out, holds all directions. -/
theorem mem_of_margins (complete : IsComplete find) {space : Submodule ℚ (Fin rows → ℚ)}
    {full : String → Bool}
    (listed : ∀ pick : String → Fin rows → ℚ,
      (∀ name ∈ names, IsListed find (full name) name (pick name)) → (names.map pick).prod ∈ space)
    (margins : ∀ name ∈ names, full name = false → ∀ levels codes,
      find name = .ok (.factor levels codes) → ∀ pick : String → Fin rows → ℚ,
      (∀ other ∈ names, IsContribution find other (pick other)) →
        ∏ other ∈ names.toFinset.erase name, pick other ^ names.count other ∈ space)
    {v : Fin rows → ℚ} (direction : IsDirection find names v) : v ∈ space := by
  obtain ⟨pick, picked, rfl⟩ := direction
  -- The induction is on the variables that need not contribute what is listed.
  have reduce (free : Finset String) : ∀ pick : String → Fin rows → ℚ,
      (∀ name ∈ names, IsContribution find name (pick name)) →
      (∀ name ∈ names, name ∉ free → IsListed find (full name) name (pick name)) →
        (names.map pick).prod ∈ space := by
    induction free using Finset.induction with
    | empty => exact fun pick _ rest => listed pick fun name mem => rest name mem (by simp)
    | insert name free _ ih =>
      intro pick picked rest
      by_cases mem : name ∈ names
      · rcases (picked name mem).listed_or_first (full name) with
          here | ⟨dropped, levels, codes, first, factor, own, others⟩
        · refine ih pick picked fun other inside outside => ?_
          by_cases same : other = name
          · exact same ▸ here
          · exact rest other inside (by simp [same, outside])
        · refine prod_mem_of_first complete factor mem own
            (margins name mem dropped levels codes factor pick picked) fun level differs => ?_
          have contributed := forall_mem_update (IsContribution find)
            (isContribution_level factor level) fun other inside _ => picked other inside
          have kept := forall_mem_update
            (fun other u => other ∉ free → IsListed find (full other) other u)
            (fun _ => others level differs) fun other inside apart outside =>
              rest other inside (by simp [apart, outside])
          exact ih _ contributed kept
      · refine ih pick picked fun other inside outside => rest other inside ?_
        simp only [Finset.mem_insert, not_or]
        exact ⟨fun same => mem (same ▸ inside), outside⟩
  exact reduce names.toFinset pick picked fun name mem outside =>
    absurd (List.mem_toFinset.mpr mem) outside

end Products

section Columns

variable {find : Predictors ℚ rows} {all terms : List Term} {constant after intercept : Bool}
  {term : Term} {choices : List (String × Bool)} {columns own : List (DesignColumn ℚ rows)}
  {space : Submodule ℚ (Fin rows → ℚ)}

/-- The cells of a product of columns. -/
theorem get_product (factors : List (DesignColumn ℚ rows)) :
    (DesignColumn.product factors).cells.get =
      (factors.map fun column => column.cells.get).prod := by
  refine funext fun row => ?_
  rw [DesignColumn.product_cells, ← List.prod_eq_foldl, Pi.list_prod_apply, List.map_map]
  rfl

/-- The columns of a term are all products of columns of its variables. -/
theorem product_mem_termColumns (done : termColumns find choices = .ok own)
    (pick : String × Bool → DesignColumn ℚ rows)
    (listed : ∀ choice ∈ choices, ∃ predictor, find choice.1 = .ok predictor ∧
      pick choice ∈ predictor.columns choice.1 choice.2) :
    DesignColumn.product (choices.map pick) ∈ own := by
  refine foldlM_spec (fun (before : List (String × Bool)) columns =>
    (∀ choice ∈ before, ∃ predictor, find choice.1 = .ok predictor ∧
      pick choice ∈ predictor.columns choice.1 choice.2) →
    DesignColumn.product (before.map pick) ∈ columns)
    ?_ [] choices (fun _ => List.mem_singleton_self _) done listed
  intro before choice columns next reached step listed
  have inside := reached fun other mem => listed other (by simp [mem])
  have some : columns ≠ [] := List.ne_nil_of_mem inside
  simp only [List.isEmpty_iff, some, ↓reduceIte, bind_eq_ok, pure_eq_ok] at step
  obtain ⟨predictor, found, rfl⟩ := step
  obtain ⟨same, again, mem⟩ := listed choice (by simp)
  obtain rfl := Except.ok.inj (found.symm.trans again)
  rw [List.map_append, List.map_singleton, DesignColumn.product_append]
  exact List.mem_flatMap.mpr ⟨_, inside, List.mem_map_of_mem mem⟩

/-- A space with the columns of a term holds the products of what its variables list. -/
theorem prod_mem_of_termColumns {names : List String} {full : String → Bool}
    (done : termColumns find (names.map fun name => (name, full name)) = .ok own)
    (kept : ∀ column ∈ own, column.cells.get ∈ space) {pick : String → Fin rows → ℚ}
    (listed : ∀ name ∈ names, IsListed find (full name) name (pick name)) :
    (names.map pick).prod ∈ space := by
  have each (name : String) : ∃ column : DesignColumn ℚ rows, name ∈ names →
      (∃ predictor, find name = .ok predictor ∧ column ∈ predictor.columns name (full name)) ∧
        pick name = column.cells.get := by
    by_cases mem : name ∈ names
    · obtain ⟨predictor, column, found, inside, same⟩ := listed name mem
      exact ⟨column, fun _ => ⟨⟨predictor, found, inside⟩, same⟩⟩
    · exact ⟨.ones "", fun inside => absurd inside mem⟩
  choose column spec using each
  have inside := kept _ (product_mem_termColumns done (fun choice => column choice.1)
    (List.forall_mem_map.mpr fun name mem => (spec name mem).1))
  rw [get_product, List.map_map, List.map_map] at inside
  rwa [List.map_congr_left fun name mem => (spec name mem).2]

/-- A factor leaves its first level out as a term on its own that a constant comes before, or in an
interaction without which the others are a term. A constant that is accounted for after a term was
so before, or the term is a factor coded in full. -/
theorem exists_full (done : coding find all constant term = .ok (choices, after)) :
    ∃ full : String → Bool, choices = term.names.map (fun name => (name, full name)) ∧
      (∀ name ∈ term.names, full name = false → ∀ levels codes,
        find name = .ok (.factor levels codes) →
          term.names = [name] ∧ constant = true ∨
          term.names.length ≠ 1 ∧ isFull all term name = false) ∧
      (after = true → constant = true ∨ ∃ name levels codes, term.names = [name] ∧
        find name = .ok (.factor levels codes) ∧ full name = true) := by
  unfold coding at done
  split at done
  · rename_i name single
    split at done
    · rename_i before
      obtain ⟨rfl, rfl⟩ := Prod.mk.inj (Except.ok.inj done)
      refine ⟨fun _ => false, by rw [single]; rfl, fun other mem _ _ _ _ => ?_, fun _ => .inl before⟩
      rw [single] at mem ⊢
      exact .inl ⟨List.mem_singleton.mp mem ▸ rfl, before⟩
    · simp only [bind_eq_ok, pure_eq_ok] at done
      obtain ⟨predictor, found, made⟩ := done
      obtain ⟨rfl, rfl⟩ := Prod.mk.inj made
      refine ⟨fun _ => predictor.isFactor, by rw [single]; rfl, ?_, fun factor => .inr ?_⟩
      · intro other mem number levels codes factor
        rw [single, List.mem_singleton] at mem
        obtain rfl := mem
        obtain rfl := Except.ok.inj (factor.symm.trans found)
        cases number
      · cases predictor with
        | numeric => cases factor
        | factor levels codes => exact ⟨name, levels, codes, single, found, factor⟩
  · rename_i several
    obtain ⟨rfl, rfl⟩ := Prod.mk.inj (Except.ok.inj done)
    refine ⟨isFull all term, rfl, fun name _ dropped _ _ _ => .inr ⟨fun one => ?_, dropped⟩, .inl⟩
    obtain ⟨name, only⟩ := List.length_eq_one_iff.mp one
    exact several name only

/-- The constant is the sum of the levels of a factor that is coded in full. -/
theorem one_mem_of_termColumns (complete : IsComplete find) {name : String} {levels : List String}
    {codes : Vector (Option (Fin levels.length)) rows} {full : String → Bool}
    (done : termColumns find ([name].map fun name => (name, full name)) = .ok own)
    (factor : find name = .ok (.factor levels codes)) (whole : full name = true)
    (kept : ∀ column ∈ own, column.cells.get ∈ space) : 1 ∈ space := by
  rw [← sum_indicators (complete name levels codes factor)]
  refine space.sum_mem fun level _ => ?_
  have listed : ∀ other ∈ [name], IsListed find (full other) other
      (Predictor.indicators codes level : Vector ℚ rows).get :=
    List.forall_mem_singleton.mpr (isListed_level factor (.inl whole))
  simpa using prod_mem_of_termColumns done kept listed

/-- The columns of each term are among those of all terms, and with all of them a space has the
constant that is accounted for when the term is coded. -/
theorem exists_coding_of_mem (complete : IsComplete find)
    (done : columnsOf find all constant terms = .ok columns)
    (kept : ∀ column ∈ columns, column.cells.get ∈ space)
    (one : constant = true → (1 : Fin rows → ℚ) ∈ space) (mem : term ∈ terms) :
    ∃ before choices after own, coding find all before term = .ok (choices, after) ∧
      termColumns find choices = .ok own ∧ (∀ column ∈ own, column.cells.get ∈ space) ∧
      (before = true → (1 : Fin rows → ℚ) ∈ space) := by
  induction terms generalizing constant columns with
  | nil => cases mem
  | cons first rest ih =>
    obtain ⟨choices, after, own, others, coded, made, remaining, rfl⟩ := columnsOf_cons_eq_ok done
    rw [List.forall_mem_append] at kept
    rcases List.mem_cons.mp mem with rfl | later
    · exact ⟨constant, choices, after, own, coded, made, kept.1, one⟩
    · refine ih remaining kept.2 (fun accounted => ?_) later
      obtain ⟨full, rfl, -, source⟩ := exists_full coded
      rcases source accounted with before | ⟨name, levels, codes, single, factor, whole⟩
      · exact one before
      · rw [single] at made
        exact one_mem_of_termColumns complete made factor whole kept.1

/-- With its margins a term has all of its directions in the space of the columns. The induction is
on the number of its variables. -/
theorem direction_mem_columnSpace (complete : IsComplete find) (margins : KeepsMargins find terms)
    (done : matrix find intercept terms = .ok columns) (mem : term ∈ terms) {v : Fin rows → ℚ}
    (direction : IsDirection find term.names v) : v ∈ columnSpace intercept columns := by
  induction count : term.names.toFinset.card using Nat.strong_induction_on generalizing term v with
  | _ size ih =>
    have columns_mem : ∀ column ∈ columns, column.cells.get ∈ columnSpace intercept columns :=
      fun column inside => Submodule.subset_span (.inr ⟨column, inside, rfl⟩)
    have constant_mem : intercept = true → (1 : Fin rows → ℚ) ∈ columnSpace intercept columns :=
      fun given => Submodule.subset_span (.inl ⟨given, rfl⟩)
    obtain ⟨before, choices, after, own, coded, made, kept, one⟩ :=
      exists_coding_of_mem complete (matrix_eq_ok done).1 columns_mem constant_mem mem
    obtain ⟨full, rfl, dropped, -⟩ := exists_full coded
    refine mem_of_margins complete (fun pick listed => prod_mem_of_termColumns made kept listed) ?_
      direction
    intro name inside leaves levels codes factor pick picked
    rcases dropped name inside leaves levels codes factor with ⟨single, given⟩ | ⟨several, absent⟩
    · simpa [single] using one given
    · obtain ⟨other, there, same, numbers⟩ :=
        margins term mem name inside levels codes factor several absent
      have fewer : other.names.toFinset.card < size := by
        rw [same, ← count]
        exact Finset.card_erase_lt_of_mem (List.mem_toFinset.mpr inside)
      have among : ∀ kept ∈ other.names, kept ∈ term.names := fun kept here => by
        rw [← List.mem_toFinset, same] at here
        exact List.mem_toFinset.mp (Finset.mem_of_mem_erase here)
      -- The margin has the numbers as often, and repeating a factor does not matter.
      refine ih _ fewer there ⟨pick, fun kept here => picked kept (among kept here), ?_⟩ rfl
      rw [Finset.prod_list_map_count, same]
      refine Finset.prod_congr rfl fun kept here => ?_
      have listed : kept ∈ other.names := List.mem_toFinset.mp (same ▸ here)
      have own := picked kept (among kept listed)
      obtain ⟨predictor, _, _, found, _, _⟩ := id own
      cases predictor with
      | numeric cells => rw [numbers kept cells found]
      | factor names codes =>
        rw [own.pow found (List.count_pos_iff.mpr (among kept listed)),
          own.pow found (List.count_pos_iff.mpr listed)]

/-- The columns of a design are in the space that its terms ask for. -/
theorem column_mem_askedSpace (done : matrix find intercept terms = .ok columns)
    {column : DesignColumn ℚ rows} (mem : column ∈ columns) :
    column.cells.get ∈ askedSpace find intercept terms := by
  obtain ⟨term, listed, factors, rfl, each⟩ := of_mem_matrix done mem
  have contributions : List.Forall₂ (IsContribution find) term.names
      (factors.map fun column => column.cells.get) := by
    refine List.forall₂_map_right_iff.mpr (each.imp fun name factor => ?_)
    rintro ⟨predictor, level, found, -, own⟩
    exact ⟨predictor, level, _, found, own, rfl⟩
  rw [get_product]
  rcases isDirection_or_eq_zero contributions with direction | zero
  · exact Submodule.subset_span (.inr ⟨term, listed, direction⟩)
  · exact zero ▸ Submodule.zero_mem _

end Columns

/-- The columns of a design span directions that its terms ask for, and all of them if the factors
keep their margins. -/
theorem spans_asked {find : Predictors ℚ rows} {intercept : Bool} {terms : List Term}
    {columns : List (DesignColumn ℚ rows)} (complete : IsComplete find)
    (done : matrix find intercept terms = .ok columns) :
    columnSpace intercept columns ≤ askedSpace find intercept terms ∧
    (KeepsMargins find terms →
      columnSpace intercept columns = askedSpace find intercept terms) := by
  have inside : columnSpace intercept columns ≤ askedSpace find intercept terms := by
    refine Submodule.span_le.mpr ?_
    rintro v (constant | ⟨column, mem, rfl⟩)
    · exact Submodule.subset_span (.inl constant)
    · exact column_mem_askedSpace done mem
  refine ⟨inside, fun margins => le_antisymm inside (Submodule.span_le.mpr ?_)⟩
  rintro v (constant | ⟨term, mem, direction⟩)
  · exact Submodule.subset_span (.inl constant)
  · exact direction_mem_columnSpace complete margins done mem direction

/-- A number and a factor over four observations. -/
def levelledSlopes : Predictors ℚ 4 := fun name =>
  if name = "x" then .ok (.numeric #v[0, 1, 2, 1])
  else if name = "f" then .ok (.factor ["low", "high"] #v[some 0, some 0, some 0, some 1])
  else .error .unknownKey

/-- They have a level for each observation. -/
theorem isComplete_levelledSlopes : IsComplete levelledSlopes := by
  intro name levels codes found
  unfold levelledSlopes at found
  split_ifs at found
  · cases Except.ok.inj found
  · obtain ⟨rfl, same⟩ := Predictor.factor.inj (Except.ok.inj found)
    obtain rfl := eq_of_heq same
    decide

/-- The slopes of the levels span what they ask for: the factor has its margin. -/
theorem slopes_span : ∃ columns,
    matrix levelledSlopes true [⟨["x"]⟩, ⟨["x", "f"]⟩] = .ok columns ∧
    IsComplete levelledSlopes ∧ KeepsMargins levelledSlopes [⟨["x"]⟩, ⟨["x", "f"]⟩] ∧
    columnSpace true columns = askedSpace levelledSlopes true [⟨["x"]⟩, ⟨["x", "f"]⟩] := by
  obtain ⟨columns, done⟩ := exists_of_isOk
    (x := matrix levelledSlopes true [⟨["x"]⟩, ⟨["x", "f"]⟩]) (by decide +kernel)
  have margins : KeepsMargins levelledSlopes [⟨["x"]⟩, ⟨["x", "f"]⟩] := by
    refine keepsMargins_of_count fun term mem number _ _ => List.nodup_iff_count_le_one.mp ?_ number
    revert term
    decide
  exact ⟨columns, done, isComplete_levelledSlopes, margins,
    (spans_asked isComplete_levelledSlopes done).2 margins⟩

/-- The squares of the first level are lost where only the number itself is a term: the factor leaves
its first level out for it, though the interaction has the number twice. -/
theorem squares_lost : ∃ columns,
    matrix levelledSlopes true [⟨["x"]⟩, ⟨["x", "x", "f"]⟩] = .ok columns ∧
    columnSpace true columns ≠ askedSpace levelledSlopes true [⟨["x"]⟩, ⟨["x", "x", "f"]⟩] := by
  obtain ⟨columns, done, flat⟩ := exists_of_any
    (matrix levelledSlopes true [⟨["x"]⟩, ⟨["x", "x", "f"]⟩])
    (fun columns => columns.all fun column =>
      decide (column.cells.get 0 - 2 * column.cells.get 1 + column.cells.get 2 = 0))
    (by decide +kernel)
  refine ⟨columns, done, fun same => ?_⟩
  -- The second differences of the columns over the first level vanish.
  let second : (Fin 4 → ℚ) →ₗ[ℚ] ℚ :=
    LinearMap.proj 0 - (2 : ℚ) • LinearMap.proj 1 + LinearMap.proj 2
  have inside : columnSpace true columns ≤ LinearMap.ker second := by
    refine Submodule.span_le.mpr ?_
    rintro v (⟨-, rfl⟩ | ⟨column, mem, rfl⟩)
    · norm_num [second, LinearMap.mem_ker]
    · simpa [second, LinearMap.mem_ker] using List.all_eq_true.mp flat column mem
  have square : IsDirection levelledSlopes ["x", "x", "f"] ![0, 1, 4, 0] := by
    have number : IsContribution levelledSlopes "x" ![0, 1, 2, 1] :=
      ⟨_, _, _, rfl, .number _, by decide +kernel⟩
    have first : IsContribution levelledSlopes "f" ![1, 1, 1, 0] :=
      ⟨_, _, _, rfl, .level _ 0, by decide +kernel⟩
    refine ⟨fun name => if name = "x" then ![0, 1, 2, 1] else ![1, 1, 1, 0], ?_, by decide +kernel⟩
    simp [number, first]
  have asked : ![0, 1, 4, 0] ∈ askedSpace levelledSlopes true [⟨["x"]⟩, ⟨["x", "x", "f"]⟩] :=
    Submodule.subset_span (.inr ⟨⟨["x", "x", "f"]⟩, by simp, square⟩)
  have vanishes : second ![0, 1, 4, 0] = 0 := inside (same ▸ asked)
  have value : second ![0, 1, 4, 0] = 0 - 2 * 1 + 4 := rfl
  norm_num [value] at vanishes

end Design

end Multilevel
