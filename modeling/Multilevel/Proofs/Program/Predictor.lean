import Mathlib
import Multilevel.Proofs.Program.Evaluation
import Multilevel.Proofs.Program.Start

/-!
# The linear predictor of a program

The statements of the linear predictor compute, for each observation, the intercept of the design
as given, the weighted sum of its design entries and the varying coefficients of its levels
(`Program.run_predictorStatements`, `Program.predictor_eq`). What centering takes from the design
it gives back to the intercept, so a dense program and a sparse one describe the same predictor.
-/
namespace Multilevel

open Exact (tabulate)
open Specification (IsNormal Matrices Holds)

/-- Taking one element more from a function. -/
theorem Exact.update_below {α : Type} (f g : Nat → α) (j : Nat) :
    Function.update (fun k => if k < j then f k else g k) j (f j) =
      fun k => if k < j + 1 then f k else g k := by
  funext k
  by_cases here : k = j
  · subst here
    simp
  · rw [Function.update_of_ne here]
    have next : k < j + 1 ↔ k < j := by omega
    simp only [next]

namespace Specification.Matrices

variable {s : Specification} (m : Matrices s)

/-- The mean of a design column. -/
def mean (k : Nat) : Rat :=
  (∑ n ∈ Finset.range s.data.rows, DesignColumn.exactEntry m.columns n k) / s.data.rows

/-- The part of the linear predictor that the slopes make up in the program. -/
def product (draw : Draw) (n : Nat) : Rat :=
  ∑ k ∈ Finset.range m.columns.length,
    (DesignColumn.exactEntry m.columns n k - if s.isCentered then m.mean k else 0) *
      draw.slopes k

/-- The part of the linear predictor that all observations share in the program. -/
def shared (draw : Draw) (n : Nat) : Rat :=
  (if s.terms.intercept then draw.intercept else 0) + m.product draw n

/-- What a single coefficient contributes to an observation. -/
def contribution (draw : Draw) (n : Nat) (single : Group × Nat) : Rat :=
  draw.effects single.1.id (m.place single.1 n) single.2 *
    DesignColumn.exactEntry (m.own single.1) n single.2

end Specification.Matrices

namespace Program

variable {a : ModelArguments} {s : Specification} {m : Matrices s} {draw : Draw} {values : Values}
  (blank : Rat) (counts : Counts)

/-- The values after some columns have been centered. -/
def centering (m : Matrices s) (blank : Rat) (values : Values) (j : Nat) : Values :=
  Function.update
    (Function.update values .centered (some (.matrix (tabulate s.data.rows fun n =>
      tabulate m.columns.length fun k =>
        if k < j then DesignColumn.exactEntry m.columns n k - m.mean k else blank))))
    .means (some (.vector (tabulate m.columns.length fun k => if k < j then m.mean k else blank)))

/-- A round of the centering centers one column more. -/
theorem run_centering (holds : Holds m draw values) (dense : s.isSparse = false)
    (rows : 0 < s.data.rows) {j : Nat} (inside : j < m.columns.length)
    (counted : counts .place = some ((j + 1 : Nat) : Int)) :
    (Statement.ofList
      [.assign (Expr.element .means Counter.place) (.call "mean" (Expr.column .design Counter.place)),
        .assign (Expr.column .centered Counter.place)
          (Expr.column .design Counter.place - Expr.element .means Counter.place)]).run blank counts
      (centering m blank values j) = some (centering m blank values (j + 1)) := by
  have place {values : Values} : (Expr.counter .place).Evaluates counts values _ :=
    .counter counted
  -- The mean of the column comes first.
  have column : (Expr.column .design Counter.place).Evaluates counts (centering m blank values j) _ :=
    .column (by simpa [centering] using holds.design dense) place (Exact.select_column inside)
  have mean := Expr.Evaluates.call column (Exact.apply_mean rows _)
  rw [Statement.run_ofList_cons, Statement.run_assign mean,
    centering, Statement.store_element (Function.update_self ..) place
      (Exact.update_vector inside _), Option.bind_some, ← Matrices.mean, Exact.update_below,
    Function.update_idem]
  -- The column without its mean comes second.
  set next := Function.update _ Variable.means _ with made
  have column : (Expr.column .design Counter.place).Evaluates counts next _ :=
    .column (by simpa [made] using holds.design dense) place (Exact.select_column inside)
  have mean : (Expr.element .means Counter.place).Evaluates counts next _ :=
    .element (Function.update_self ..) place (Exact.select_vector inside)
  have difference := Expr.Evaluates.sub column mean (Exact.combine_vector_real _ _ _ _)
  rw [if_pos (Nat.lt_succ_self j)] at difference
  rw [Statement.run_ofList_singleton, Statement.run_assign difference,
    Statement.store_column (by rw [made, Function.update_of_ne (by simp), Function.update_self])
      place (Exact.update_column inside _), made, Function.update_comm (by simp),
    Function.update_idem]
  simp only [Exact.update_below]
  rfl

/-- The transformed data are the centered design and the means of its columns; nothing else
changes. -/
theorem run_transformedDataBlock (holds : Holds m draw values) (rows : 0 < s.data.rows) :
    ∃ after, (Statement.ofList (transformedDataBlock s)).run blank counts values = some after ∧
      (∀ v, v ≠ .centered → v ≠ .means → after v = values v) ∧
      (s.isCentered = true →
        after .centered = some (.matrix (tabulate s.data.rows fun n =>
          tabulate m.columns.length fun k => DesignColumn.exactEntry m.columns n k - m.mean k)) ∧
        after .means = some (.vector (tabulate m.columns.length m.mean))) := by
  by_cases centered : s.isCentered = true
  · obtain ⟨_, _, dense⟩ := Specification.of_isCentered centered
    have sizes : VariableType.filled blank counts values
        (.matrix Variable.observations Variable.coefficients) = _ :=
      VariableType.filled_matrix (.var holds.observations) (.var holds.coefficients)
    refine ⟨centering m blank values m.columns.length, ?_, fun v left right => ?_, fun _ => ⟨?_, ?_⟩⟩
    · rw [transformedDataBlock, if_pos centered, Statement.run_ofList_cons,
        Statement.run_declare sizes, Option.bind_some]
      set filled := Function.update values .centered _ with made
      have count : (Expr.var .coefficients).Evaluates counts filled _ :=
        .var (by simpa [made] using holds.coefficients)
      rw [Statement.run_ofList_cons, Statement.run_declare (VariableType.filled_vector count),
        Option.bind_some, Statement.run_ofList_singleton, made]
      refine Statement.run_forEach (.var (by simpa using holds.coefficients))
        (centering m blank values) ?_ fun j inside =>
          run_centering blank _ holds dense rows inside (Function.update_self ..)
      simp only [centering, Nat.not_lt_zero, if_false]
    · rw [centering, Function.update_of_ne right, Function.update_of_ne left]
    · rw [centering, Function.update_of_ne (by simp), Function.update_self]
      refine congrArg (some ∘ Exact.matrix) (Exact.tabulate_congr fun n _ => ?_)
      exact Exact.tabulate_congr fun k inside => if_pos inside
    · rw [centering, Function.update_self]
      exact congrArg (some ∘ Exact.vector) (Exact.tabulate_congr fun k inside => if_pos inside)
  · refine ⟨values, ?_, fun _ _ _ => rfl, fun other => absurd other centered⟩
    rw [transformedDataBlock, if_neg centered]
    rfl

/-- The single coefficients of all groups, each with its group, counted from zero. -/
def singles (s : Specification) : List (Group × Nat) :=
  s.terms.groups.flatMap fun group => (List.range group.size).map fun k => (group, k)

/-- The variable of a single coefficient. -/
def singleVariable (single : Group × Nat) : Variable := .effect single.1.id (single.2 + 1)

/-- What the single coefficients hold, given each element by the group, the coefficient and the
level. -/
def singleValues (s : Specification) (element : Group → Nat → Nat → Rat) : Variable → Exact
  | .effect i k =>
    match s.terms.groups.find? fun group => group.id = i with
    | some group => .vector (tabulate group.levels.length (element group (k - 1)))
    | none => .int 0
  | _ => .int 0

/-- A single coefficient is one of a group. -/
theorem mem_singles {group : Group} {k : Nat} :
    (group, k) ∈ singles s ↔ group ∈ s.terms.groups ∧ k < group.size := by
  simp [singles]

/-- The variable of a single coefficient holds its elements. -/
theorem singleValues_eq (normal : IsNormal a s) (element : Group → Nat → Nat → Rat)
    {single : Group × Nat} (mem : single ∈ singles s) :
    singleValues s element (singleVariable single) =
      .vector (tabulate single.1.levels.length (element single.1 single.2)) := by
  rw [singleVariable, singleValues, normal.find?_group (mem_singles.mp mem).1]
  rfl

/-- Variables other than single coefficients are not overwritten by them. -/
theorem overwrite_singles {targets : List Variable} (within : targets ⊆ (singles s).map singleVariable)
    (other : Variable → Exact) {v : Variable} (differs : ∀ i k, v ≠ .effect i k) :
    Statement.overwrite values targets other v = values v := by
  refine if_neg fun mem => ?_
  obtain ⟨single, _, same⟩ := List.mem_map.mp (within mem)
  exact differs _ _ same.symm

/-- The declarations of the single coefficients leave them blank. -/
theorem run_columnDeclarations (normal : IsNormal a s) (levels : ∀ group ∈ s.terms.groups,
      values (.levelCount group.id) = some (.int group.levels.length)) :
    (Statement.ofList (s.terms.groups.flatMap columnDeclarations)).run blank counts values =
      some (Statement.overwrite values ((singles s).map singleVariable)
        (singleValues s fun _ _ _ => blank)) := by
  have declarations : s.terms.groups.flatMap columnDeclarations = (singles s).map fun single =>
      .declare (.vector {} (Variable.levelCount single.1.id)) (singleVariable single) none "" := by
    simp only [singles, List.map_flatMap, List.map_map]
    rfl
  rw [declarations]
  refine Statement.run_each fun ⟨group, k⟩ mem targets within => ?_
  have count : (Expr.var (.levelCount group.id)).Evaluates counts
      (Statement.overwrite values targets (singleValues s fun _ _ _ => blank)) _ :=
    .var ((overwrite_singles within _ (by simp)).trans (levels group (mem_singles.mp mem).1))
  rw [Statement.run_declare (VariableType.filled_vector count), singleValues_eq normal _ mem]

/-- The single coefficients are taken from the scaled effects of their groups. -/
theorem run_columnStatements (normal : IsNormal a s)
    (declared : ∀ single ∈ singles s, ∃ f, values (singleVariable single) =
      some (.vector (tabulate single.1.levels.length f)))
    (effects : ∀ group ∈ s.terms.groups, values (.effects group.id) =
      some (.matrix (tabulate group.levels.length fun level =>
        tabulate group.size (draw.effects group.id level)))) :
    (Statement.ofList (s.terms.groups.flatMap columnStatements)).run blank counts values =
      some (Statement.overwrite values ((singles s).map singleVariable)
        (singleValues s fun group k level => draw.effects group.id level k)) := by
  have statements : s.terms.groups.flatMap columnStatements = (singles s).map fun single =>
      .assign (singleVariable single)
        (Expr.column (.effects single.1.id) (Expr.ofNat (single.2 + 1))) := by
    simp only [singles, List.map_flatMap, List.map_map]
    rfl
  rw [statements]
  refine Statement.run_each fun ⟨group, k⟩ mem targets within => ?_
  obtain ⟨listed, inside⟩ := mem_singles.mp mem
  set now := Statement.overwrite values targets _ with made
  have own := singleValues_eq normal (fun group k level => draw.effects group.id level k) mem
  -- Whether it was assigned before or only declared, the variable holds a vector of its size.
  have old : ∃ f, now (singleVariable (group, k)) =
      some (.vector (tabulate group.levels.length f)) := by
    by_cases here : singleVariable (group, k) ∈ targets
    · exact ⟨_, (if_pos here).trans (congrArg some own)⟩
    · rw [made, Statement.overwrite, if_neg here]
      exact declared _ mem
  obtain ⟨f, holds⟩ := old
  have column : (Expr.column (.effects group.id) (Expr.ofNat (k + 1))).Evaluates counts now _ :=
    .column ((overwrite_singles within _ (by simp)).trans (effects group listed)) (.ofNat _)
      (Exact.select_column inside)
  rw [Statement.run_assign column, Statement.store_var holds (Exact.keep_vector _ _), own]

/-- What the variables hold once the design is centered and the single coefficients are taken. -/
structure Prepared (m : Matrices s) (draw : Draw) (values : Values) : Prop
    extends Holds m draw values where
  centered : s.isCentered = true → values .centered =
    some (.matrix (tabulate s.data.rows fun n =>
      tabulate m.columns.length fun k => DesignColumn.exactEntry m.columns n k - m.mean k))
  means : s.isCentered = true →
    values .means = some (.vector (tabulate m.columns.length m.mean))
  singles : ∀ single ∈ singles s, values (singleVariable single) =
    some (.vector (tabulate single.1.levels.length fun level =>
      draw.effects single.1.id level single.2))

/-- Whether a variable is computed on the way to the linear predictor. -/
def IsComputed (v : Variable) : Prop :=
  v = .centered ∨ v = .means ∨ v = .predictor ∨ ∃ i k, v = .effect i k

/-- Values that agree but for what is computed hold the same. -/
theorem holds_of_agree (holds : Holds m draw values) {after : Values}
    (same : ∀ v, ¬ IsComputed v → after v = values v) : Holds m draw after := by
  refine holds.of_agree fun v input => same v ?_
  rintro (rfl | rfl | rfl | ⟨_, _, rfl⟩) <;> exact input

/-- The statements that come before the model: the centering of the design and the single
coefficients of the groups. -/
def preparation (s : Specification) : List Statement :=
  transformedDataBlock s ++
    (s.terms.groups.flatMap columnDeclarations ++ s.terms.groups.flatMap columnStatements)

/-- The preparation of the linear predictor succeeds and sets nothing but what is computed. -/
theorem exists_preparation (normal : IsNormal a s) (holds : Holds m draw values) :
    ∃ after, (Statement.ofList (preparation s)).run blank counts values = some after ∧
      Prepared m draw after ∧ ∀ v, ¬IsComputed v → after v = values v := by
  obtain ⟨first, centered, same, made⟩ :=
    run_transformedDataBlock blank counts holds normal.rows_pos
  have levels : ∀ group ∈ s.terms.groups,
      first (.levelCount group.id) = some (.int group.levels.length) := fun group mem =>
    (same _ (by simp) (by simp)).trans (holds.levels group mem)
  have declared := run_columnDeclarations blank counts normal levels
  set second := Statement.overwrite first _ _ with secondMade
  have kept {v : Variable} (differs : ∀ i k, v ≠ .effect i k) : second v = first v :=
    overwrite_singles (fun _ => id) _ differs
  have columns := run_columnStatements blank counts normal
    (fun single mem => ⟨_, (if_pos (List.mem_map_of_mem mem)).trans
      (congrArg some (singleValues_eq normal _ mem))⟩)
    (fun group mem => (kept (by simp)).trans
      ((same _ (by simp) (by simp)).trans (holds.effects group mem)))
  set third := Statement.overwrite second _ _ with thirdMade
  have final {v : Variable} (differs : ∀ i k, v ≠ .effect i k) : third v = first v :=
    (overwrite_singles (fun _ => id) _ differs).trans (kept differs)
  have others (v : Variable) (other : ¬IsComputed v) : third v = values v := by
    simp only [IsComputed, not_or, not_exists] at other
    exact (final other.2.2.2).trans (same v other.1 other.2.1)
  refine ⟨third, ?_, ⟨holds_of_agree holds others, fun yes => ?_, fun yes => ?_,
    fun single mem => ?_⟩, others⟩
  · rw [preparation, Statement.run_ofList_append, centered, Option.bind_some,
      Statement.run_ofList_append, declared, Option.bind_some, columns]
  · exact (final (by simp)).trans (made yes).1
  · exact (final (by simp)).trans (made yes).2
  · exact (if_pos (List.mem_map_of_mem mem)).trans (congrArg some (singleValues_eq normal _ mem))

/-- The preparation of the linear predictor succeeds. -/
theorem run_preparation (normal : IsNormal a s) (holds : Holds m draw values) :
    ∃ after, (Statement.ofList (preparation s)).run blank counts values = some after ∧
      Prepared m draw after := by
  obtain ⟨after, ran, prepared, _⟩ := exists_preparation blank counts normal holds
  exact ⟨after, ran, prepared⟩

/-- The linear predictor itself is no part of what was prepared. -/
theorem Prepared.update (prepared : Prepared m draw values) (x : Option Exact) :
    Prepared m draw (Function.update values .predictor x) where
  toHolds := holds_of_agree prepared.toHolds fun v other => by
    simp only [IsComputed, not_or] at other
    exact Function.update_of_ne other.2.2.1 ..
  centered yes := (Function.update_of_ne (by simp) ..).trans (prepared.centered yes)
  means yes := (Function.update_of_ne (by simp) ..).trans (prepared.means yes)
  singles single mem :=
    (Function.update_of_ne (by simp [singleVariable]) ..).trans (prepared.singles single mem)

/-- Without centering, the slopes are taken with the design as given. -/
theorem product_of_not_centered (plain : s.isCentered = false) : m.product draw = fun n =>
    ∑ k ∈ Finset.range m.columns.length,
      DesignColumn.exactEntry m.columns n k * draw.slopes k := by
  funext n
  simp [Matrices.product, plain]

/-- With centering, they are taken with the centered design. -/
theorem product_of_centered (centered : s.isCentered = true) : m.product draw = fun n =>
    ∑ k ∈ Finset.range m.columns.length,
      (DesignColumn.exactEntry m.columns n k - m.mean k) * draw.slopes k := by
  funext n
  simp [Matrices.product, centered]

/-- The product of a design without its zeros and the slopes. -/
theorem evaluates_sparse (prepared : Prepared m draw values) (sparse : s.isSparse = true) :
    (Expr.call "csr_matrix_times_vector" ((Expr.var .observations).list
      [Variable.coefficients, Variable.nonzeros, Variable.nonzeroColumns, Variable.rowStarts,
        Variable.slopes])).Evaluates counts values
      (.vector (tabulate s.data.rows (m.product draw))) := by
  have sloped : s.hasSlopes = true := by
    rw [Specification.isSparse, Bool.and_eq_true] at sparse
    exact sparse.2
  have plain : s.isCentered = false := by
    rw [Specification.isSparse, Bool.and_eq_true] at sparse
    simp [Specification.isCentered, sparse.1]
  have first : (Expr.var .observations).Evaluates counts values _ := .var prepared.observations
  have arguments := Expr.Evaluates.list first
    (.cons (.var prepared.coefficients) (.cons (.var (prepared.entries sparse))
      (.cons (.var (prepared.entryColumns sparse)) (.cons (.var (prepared.rowStarts sparse))
        (.cons (.var (prepared.slopes sloped)) .nil)))))
  refine .call arguments ?_
  have rows : (BuildData.rowsOf m.columns).length = s.data.rows := by simp [BuildData.rowsOf]
  have dense := Exact.sparseTimes_sparse (BuildData.rowsOf m.columns)
    (fun row mem => DesignColumn.length_of_mem_rowsOf mem) draw.slopes
  rw [rows, DesignColumn.exact_rowsOf, Exact.mapM_dot_tabulate] at dense
  rw [product_of_not_centered plain]
  exact congrArg (Option.map Exact.vector) dense

/-- The product of the design and the slopes has the same value however the design is passed. -/
theorem designSummands_spec (given : m.IsGiven) (prepared : Prepared m draw values) :
    designSummands s = [] ∧ m.columns.length = 0 ∨
    ∃ e, designSummands s = [e] ∧
      e.Evaluates counts values (.vector (tabulate s.data.rows (m.product draw))) := by
  unfold designSummands
  by_cases sparse : s.isSparse = true
  · exact .inr ⟨_, if_pos sparse, evaluates_sparse counts prepared sparse⟩
  rw [if_neg sparse]
  by_cases centered : s.isCentered = true
  · obtain ⟨_, sloped, _⟩ := Specification.of_isCentered centered
    refine .inr ⟨_, if_pos centered, .mul (.var (prepared.centered centered))
      (.var (prepared.slopes sloped)) ?_⟩
    rw [Exact.times_tabulate, product_of_centered centered]
  rw [if_neg centered]
  by_cases sloped : s.hasSlopes = true
  · refine .inr ⟨_, if_pos sloped, .mul (.var (prepared.design (by simpa using sparse)))
      (.var (prepared.slopes sloped)) ?_⟩
    rw [Exact.times_tabulate, product_of_not_centered (by simpa using centered)]
  · refine .inl ⟨if_neg sloped, ?_⟩
    have none : s.terms.population = [] := by simpa [Specification.hasSlopes] using sloped
    rw [given.columns.2, List.map_eq_nil_iff] at none
    rw [none, List.length_nil]

/-- The shared summands are added for all observations at once. -/
theorem run_sharedStatements (given : m.IsGiven) (prepared : Prepared m draw values) :
    (Statement.ofList (sharedStatements s)).run blank counts
        (Function.update values .predictor (some (.vector (tabulate s.data.rows fun _ => 0)))) =
      some (Function.update values .predictor
        (some (.vector (tabulate s.data.rows (m.shared draw))))) := by
  set zeros := Function.update values .predictor _ with made
  have zero : (Expr.var .predictor).Evaluates counts zeros _ := .var (Function.update_self ..)
  have present := prepared.update (some (.vector (tabulate s.data.rows fun _ => 0)))
  rw [← made] at present
  -- Adding an expression to the zeros stores its value.
  have adds {e : Expr} {z : Exact} (sum : (Expr.var .predictor + e).Evaluates counts zeros z)
      (value : z = .vector (tabulate s.data.rows (m.shared draw))) :
      (Statement.ofList [.add Variable.predictor e]).run blank counts zeros =
        some (Function.update values .predictor
          (some (.vector (tabulate s.data.rows (m.shared draw))))) := by
    rw [Statement.run_ofList_singleton, Statement.run_add sum, value,
      Statement.store_var (Function.update_self ..) (Exact.keep_vector _ _),
      Function.update_idem]
  unfold sharedStatements sharedSummands
  rcases designSummands_spec counts given present with ⟨none, empty⟩ | ⟨e, one, product⟩
  · have vanishes (n : Nat) : m.product draw n = 0 := by simp [Matrices.product, empty]
    rw [none, List.append_nil]
    by_cases shifted : s.terms.intercept = true
    · rw [if_pos shifted]
      refine adds (.add zero (.var (present.intercept shifted))
        (Exact.combine_vector_real _ _ _ _)) ?_
      refine congrArg Exact.vector (Exact.tabulate_congr fun n _ => ?_)
      rw [Matrices.shared, if_pos shifted, vanishes]
      ring
    · rw [if_neg shifted]
      refine congrArg some (congrArg (Function.update values .predictor) (congrArg some ?_))
      refine congrArg Exact.vector (Exact.tabulate_congr fun n _ => ?_)
      rw [Matrices.shared, if_neg shifted, vanishes]
      ring
  · rw [one]
    by_cases shifted : s.terms.intercept = true
    · rw [if_pos shifted]
      have sum := Expr.Evaluates.add (.var (present.intercept shifted)) product
        (Exact.combine_real_vector _ _ _ _)
      refine adds (.add zero sum (Exact.combine_vectors _ _ _ _)) ?_
      refine congrArg Exact.vector (Exact.tabulate_congr fun n _ => ?_)
      rw [Matrices.shared, if_pos shifted]
      ring
    · rw [if_neg shifted]
      refine adds (.add zero product (Exact.combine_vectors _ _ _ _)) ?_
      refine congrArg Exact.vector (Exact.tabulate_congr fun n _ => ?_)
      rw [Matrices.shared, if_neg shifted]

/-- The statement that adds a single coefficient to the linear predictor of an observation. -/
def singleSummand (single : Group × Nat) : Statement :=
  .add (Expr.element .predictor Counter.observation)
    (Expr.element (singleVariable single)
        (Expr.element (.levelIndex single.1.id) Counter.observation) *
      Expr.element (.effectDesign single.1.id (single.2 + 1)) Counter.observation)

/-- Adding a single coefficient changes the linear predictor of its observation. -/
theorem run_singleSummand (given : m.IsGiven) (prepared : Prepared m draw values)
    {single : Group × Nat} (mem : single ∈ singles s) {n : Nat} (inside : n < s.data.rows)
    (counted : counts .observation = some ((n + 1 : Nat) : Int)) (f : Nat → Rat) :
    (singleSummand single).run blank counts
        (Function.update values .predictor (some (.vector (tabulate s.data.rows f)))) =
      some (Function.update values .predictor (some (.vector (tabulate s.data.rows
        (Function.update f n (f n + m.contribution draw n single)))))) := by
  obtain ⟨group, k⟩ := single
  obtain ⟨listed, within⟩ := mem_singles.mp mem
  have present := prepared.update (some (.vector (tabulate s.data.rows f)))
  set now := Function.update values .predictor (some (.vector (tabulate s.data.rows f)))
  have here : m.place group n < group.levels.length := by
    simpa [Matrices.place, inside, Vector.get_eq_getElem] using
      given.inside group listed ⟨n, inside⟩
  have observation : (Expr.counter .observation).Evaluates counts now _ := .counter counted
  have own : (Expr.element .predictor Counter.observation).Evaluates counts now _ :=
    .element (Function.update_self ..) observation (Exact.select_vector inside)
  have level : (Expr.element (.levelIndex group.id) Counter.observation).Evaluates counts now _ :=
    .element (present.places group listed) observation (Exact.select_ints inside)
  have coefficient := Expr.Evaluates.element (present.singles _ mem) level
    (Exact.select_vector here)
  have entry := Expr.Evaluates.element (present.columns group listed k within) observation
    (Exact.select_vector inside)
  have sum := own.add (coefficient.mul entry rfl) rfl
  rw [singleSummand, Statement.run_add sum, Statement.store_element (Function.update_self ..)
    observation (Exact.update_vector inside _), Function.update_idem]
  rfl

/-- Adding single coefficients changes the linear predictor of their observation by their sum. -/
theorem run_singleSummands (given : m.IsGiven) (prepared : Prepared m draw values)
    {items : List (Group × Nat)} (listed : items ⊆ singles s) {n : Nat}
    (inside : n < s.data.rows) (counted : counts .observation = some ((n + 1 : Nat) : Int))
    (f : Nat → Rat) :
    (Statement.ofList (items.map singleSummand)).run blank counts
        (Function.update values .predictor (some (.vector (tabulate s.data.rows f)))) =
      some (Function.update values .predictor (some (.vector (tabulate s.data.rows
        (Function.update f n (f n + (items.map (m.contribution draw n)).sum)))))) := by
  induction items generalizing f with
  | nil =>
    rw [List.map_nil, List.map_nil, List.sum_nil, add_zero, Function.update_eq_self]
    rfl
  | cons single rest ih =>
    rw [List.map_cons, Statement.run_ofList_cons,
      run_singleSummand blank counts given prepared (listed List.mem_cons_self) inside counted,
      Option.bind_some, ih fun other mem => listed (List.mem_cons_of_mem _ mem)]
    simp [add_assoc]

/-- The loop over the observations adds the single coefficients of all groups. -/
theorem run_observationLoop (given : m.IsGiven) (prepared : Prepared m draw values)
    (plain : s.autocorrelation = none) (f : Nat → Rat) :
    (Statement.ofList (observationLoop s)).run blank counts
        (Function.update values .predictor (some (.vector (tabulate s.data.rows f)))) =
      some (Function.update values .predictor (some (.vector (tabulate s.data.rows fun n =>
        f n + ((singles s).map (m.contribution draw n)).sum)))) := by
  have body : observationStatements s = (singles s).map singleSummand := by
    rw [observationStatements, plain]
    simp only [Option.isSome_none, Bool.false_eq_true, if_false, List.append_nil, singles,
      List.map_flatMap, List.map_map]
    rfl
  unfold observationLoop
  rw [body]
  split
  · rename_i none
    rw [List.map_eq_nil_iff] at none
    simp only [none, List.map_nil, List.sum_nil, add_zero]
    rfl
  · rw [Statement.run_ofList_singleton]
    have rows : (Expr.var .observations).Evaluates counts
        (Function.update values .predictor (some (.vector (tabulate s.data.rows f)))) _ :=
      .var ((Function.update_of_ne (by simp) ..).trans prepared.observations)
    -- After some rounds the observations up to there have all their coefficients.
    let full (n : Nat) : Rat := f n + ((singles s).map (m.contribution draw n)).sum
    refine (Statement.run_forEach rows (fun j => Function.update values .predictor
      (some (.vector (tabulate s.data.rows fun n => if n < j then full n else f n)))) ?_
      fun j inside => ?_).trans ?_
    · simp only [Nat.not_lt_zero, if_false]
    · rw [run_singleSummands blank _ given prepared (fun _ => id) inside (Function.update_self ..),
        if_neg (Nat.lt_irrefl j), Exact.update_below full f j]
    · refine congrArg some (congrArg (Function.update values .predictor) (congrArg some ?_))
      exact congrArg Exact.vector (Exact.tabulate_congr fun n inside => if_pos inside)

/-- The linear predictor without residuals is what all observations share and the single
coefficients of their levels. -/
theorem run_predictorStatements (given : m.IsGiven) (prepared : Prepared m draw values)
    (plain : s.autocorrelation = none) :
    (Statement.ofList (predictorStatements s)).run blank counts values =
      some (Function.update values .predictor (some (.vector (tabulate s.data.rows fun n =>
        m.shared draw n + ((singles s).map (m.contribution draw n)).sum)))) := by
  have rows : (Expr.var .observations).Evaluates counts values _ := .var prepared.observations
  have zeros : (Expr.call "rep_vector"
      ((Expr.literal "0.0").and Variable.observations)).Evaluates counts values _ :=
    .call (Expr.Evaluates.and Expr.Evaluates.zero rows) (Exact.apply_repeat _ _)
  have none : residualDeclarations s = [] := by simp [residualDeclarations, plain]
  rw [predictorStatements, none, Statement.run_ofList_append, Statement.run_ofList_append,
    Statement.run_ofList_singleton,
    Statement.run_declare_value (VariableType.filled_vector rows) zeros (Exact.keep_vector _ _),
    Option.bind_some, run_sharedStatements blank counts given prepared, Option.bind_some,
    run_observationLoop blank counts given prepared plain]

/-- The intercept of the design as given, as the program reports it. -/
def reported (m : Matrices s) (draw : Draw) : Rat :=
  if s.terms.intercept then
    draw.intercept - if s.isCentered then
      ∑ k ∈ Finset.range m.columns.length, m.mean k * draw.slopes k else 0
  else 0

/-- The program reports the intercept of the design as given if there is one. -/
theorem run_interceptQuantity (prepared : Prepared m draw values) :
    ∃ after, (Statement.ofList (interceptQuantity s)).run blank counts values = some after ∧
      if s.terms.intercept then after .intercept = some (.real (reported m draw))
      else reported m draw = 0 := by
  unfold interceptQuantity reported
  by_cases shifted : s.terms.intercept = true
  · simp only [if_pos shifted]
    have intercept : (Expr.var .temporaryIntercept).Evaluates counts values _ :=
      .var (prepared.intercept shifted)
    by_cases centered : s.isCentered = true
    · obtain ⟨_, sloped, _⟩ := Specification.of_isCentered centered
      have means : (Expr.var .means).Evaluates counts values _ := .var (prepared.means centered)
      have slopes : (Expr.var .slopes).Evaluates counts values _ := .var (prepared.slopes sloped)
      have difference := intercept.sub (.call (Expr.Evaluates.and means slopes) (Exact.apply_dot _ _)) rfl
      rw [if_pos centered, if_pos centered, Statement.run_ofList_singleton,
        Statement.run_declare_value rfl difference rfl]
      exact ⟨_, rfl, Function.update_self ..⟩
    · rw [if_neg centered, if_neg centered, Statement.run_ofList_singleton,
        Statement.run_declare_value rfl intercept rfl, sub_zero]
      exact ⟨_, rfl, Function.update_self ..⟩
  · simp only [if_neg shifted]
    exact ⟨values, rfl, trivial⟩

/-- What the program computes, in terms of the intercept that it reports. -/
theorem predictor_eq (given : m.IsGiven) (n : Fin s.data.rows) :
    m.shared draw n + ((singles s).map (m.contribution draw n)).sum =
      m.predictor draw (reported m draw) n := by
  have slopes : m.shared draw n = reported m draw +
      ∑ k : Fin m.columns.length, Number.exact m.columns[k].cells[n] * draw.slopes k := by
    have entries : ∑ k : Fin m.columns.length, Number.exact m.columns[k].cells[n] * draw.slopes k =
        ∑ k ∈ Finset.range m.columns.length,
          DesignColumn.exactEntry m.columns n k * draw.slopes k := by
      rw [← Fin.sum_univ_eq_sum_range
        (fun k => DesignColumn.exactEntry m.columns n k * draw.slopes k)]
      exact Finset.sum_congr rfl fun k _ => by rw [DesignColumn.exactEntry_eq]; rfl
    rw [entries, Matrices.shared, Matrices.product, reported]
    by_cases centered : s.isCentered = true
    · obtain ⟨shifted, _⟩ := Specification.of_isCentered centered
      -- What the slopes lose by centering is what the intercept reports less.
      simp only [if_pos centered, if_pos shifted, sub_mul, Finset.sum_sub_distrib]
      ring
    · simp only [if_neg centered, sub_zero]
  have effects : ((singles s).map (m.contribution draw n)).sum =
      (s.terms.groups.map fun group => ∑ k : Fin (m.own group).length,
        draw.effects group.id (m.places group)[n] k *
          Number.exact (m.own group)[k].cells[n]).sum := by
    rw [singles, List.map_flatMap, List.flatMap_def, List.sum_flatten, List.map_map]
    refine congrArg List.sum (List.map_congr_left fun group mem => ?_)
    have size : group.size = (m.own group).length := by
      rw [Group.size, (given.own group mem).2, List.length_map]
    rw [Function.comp_apply, List.map_map, size]
    refine (Fin.sum_univ_eq_sum_range (fun k => m.contribution draw n (group, k)) _).symm.trans ?_
    refine Finset.sum_congr rfl fun k _ => ?_
    rw [Matrices.contribution, DesignColumn.exactEntry_eq]
    simp [Matrices.place, Vector.get_eq_getElem]
  rw [slopes, effects, Matrices.predictor]

end Program

/-- The program of a specification computes a linear predictor from a draw, whatever blanks are:
it is the given one for the intercept that the program reports, or for none if there is none. -/
def Specification.Predicts (s : Specification) (data : BuildData)
    (predictor : Draw → Rat → Fin s.data.rows → Rat) : Prop :=
  ∀ (blank : Rat) (draw : Draw), ∃ prepared model quantities intercept,
    (Statement.ofList (Program.preparation s)).run blank (fun _ => none) (s.start data draw) =
        some prepared ∧
      (Statement.ofList (Program.predictorStatements s)).run blank (fun _ => none) prepared =
        some model ∧
      (Statement.ofList (Program.interceptQuantity s)).run blank (fun _ => none) prepared =
        some quantities ∧
      (if s.terms.intercept then quantities .intercept = some (.real intercept)
        else intercept = 0) ∧
      model .predictor = some (.vector (List.ofFn (predictor draw intercept)))

namespace Specification

/-- Passing the design without its zeros or with them changes nothing else in a specification. -/
theorem normalize_sparse {a : ModelArguments} {s : Specification}
    (accepted : (normalize a).outcome = .ok s) (flag : Bool) :
    (normalize { a with sparse := flag }).outcome = .ok { s with sparse := flag } := by
  simp only [normalize, Reported.outcome_bind, Reported.outcome_pure, Reported.outcome_liftM,
    bind_eq_ok, mapError_eq_ok] at accepted ⊢
  obtain ⟨formula, read, family, resolved, raw, given, sample, chosen, _, valid, data, cleaned,
    knots, knotted, terms, built, covariances, checked, priors, listed, merged, settled, fragments,
    collected, made⟩ := accepted
  obtain rfl := Except.ok.inj made
  exact ⟨formula, read, family, resolved, raw, given, sample, chosen, _, valid, data, cleaned,
    knots, knotted, terms, built, covariances, checked, priors, listed, merged, settled, fragments,
    collected, rfl⟩

/-- Without residuals, the programs of a specification and of its sparse twin compute the linear
predictor that the matrices of the data give, on the scale of the reported intercept. -/
theorem predicts {a : ModelArguments} {s : Specification}
    (accepted : (normalize a).outcome = .ok s) (plain : s.autocorrelation = none) :
    ∃ m : Matrices s, m.IsGiven ∧ ∀ flag,
      (normalize { a with sparse := flag }).outcome = .ok { s with sparse := flag } ∧
      ∃ values, BuildData.generated { s with sparse := flag } = .ok values ∧
        (s.fragments.data = [] →
          BuildData.ofSpecification { s with sparse := flag } = .ok (.ofValues values)) ∧
        Predicts { s with sparse := flag } (.ofValues values) m.predictor := by
  obtain ⟨m, given⟩ := (normalize_spec accepted).exists_matrices
  refine ⟨m, given, fun flag => ?_⟩
  have twin := normalize_sparse accepted flag
  have normal := normalize_spec twin
  -- The matrices of the twin are the same.
  let same : Matrices { s with sparse := flag } := ⟨m.columns, m.own, m.places⟩
  have sameGiven : same.IsGiven := ⟨given.columns, given.own, given.places, given.inside⟩
  obtain ⟨values, before, made, provided, _⟩ := BuildData.generated_spec normal sameGiven.columns
  refine ⟨twin, values, made, fun none => ?_, fun blank draw => ?_⟩
  · rw [BuildData.ofSpecification, made]
    simp only [none]
    rfl
  · have holds := start_holds provided normal sameGiven draw
    obtain ⟨prepared, first, ready⟩ := Program.run_preparation blank (fun _ => none) normal holds
    obtain ⟨quantities, third, intercept⟩ :=
      Program.run_interceptQuantity blank (fun _ => none) ready
    have second := Program.run_predictorStatements blank (fun _ => none) sameGiven ready plain
    refine ⟨prepared, _, quantities, Program.reported same draw, first, second, third, intercept, ?_⟩
    rw [Function.update_self]
    exact congrArg (some ∘ Exact.vector)
      (Exact.tabulate_eq_ofFn fun n => Program.predictor_eq sameGiven n)

/-- The programs of the small model and of its sparse twin compute its linear predictor. -/
theorem sample_predicts : ∃ s, (normalize sample).outcome = .ok s ∧ s.autocorrelation = none ∧
    ∃ m : Matrices s, m.IsGiven ∧ ∀ flag,
      ∃ values, BuildData.generated { s with sparse := flag } = .ok values ∧
        Predicts { s with sparse := flag } (.ofValues values) m.predictor := by
  obtain ⟨s, accepted⟩ := exists_normalize_sample
  have plain : s.autocorrelation = none := (normalize_spec accepted).autocorrelation
  obtain ⟨m, given, each⟩ := predicts accepted plain
  refine ⟨s, accepted, plain, m, given, fun flag => ?_⟩
  obtain ⟨_, values, made, _, computes⟩ := each flag
  exact ⟨values, made, computes⟩

end Specification

end Multilevel
