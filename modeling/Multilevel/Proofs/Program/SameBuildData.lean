import Multilevel.Proofs.Model.Covariance
import Multilevel.Proofs.Model.Comparison
import Multilevel.Proofs.Program.BuildData
import Multilevel.Proofs.Program.SameData

/-!
# Data of specifications that compare equal

Specifications that compare equal have data that agree, variable by variable, or meet the same error
(`BuildData.ofSpecification_endAlike`): the order of the levels is that of the formula's factors in
both, so the designs agree, and what else goes into the data compares equal with the specifications.
-/
namespace Multilevel

open Number (Alike)

namespace BuildData

/-- Data of variables that agree do so under the names of the variables. -/
theorem ofValues_agree {x y : List (Variable × Datum)} (agree : AreAlike x y) :
    AreAlike (ofValues x) (ofValues y) := by
  refine Entries.Related.putAll (List.rel_map (fun p q each => ?_) agree)
  exact ⟨congrArg Variable.name each.1, each.2⟩

/-- The user's values are added to data that agree, or meet a variable of the same name. -/
theorem addLoose_endAlike {loose loose' : List (String × Value)} {x y : BuildData}
    (same : Entries.Related Value.AreSame loose loose') (agree : AreAlike x y) :
    EndAlike AreAlike (addLoose loose x) (addLoose loose' y) := by
  unfold Entries.Related at same
  induction same generalizing x y with
  | nil => exact .ok agree
  | @cons first second _ _ each _ ih =>
    obtain ⟨_, v⟩ := first
    obtain ⟨name, w⟩ := second
    obtain ⟨rfl, own⟩ := each
    have taken : (x.lookup name).isSome = (y.lookup name).isSome := by
      rw [Bool.eq_iff_iff, Option.isSome_iff_exists, Option.isSome_iff_exists,
        Entries.exists_lookup_iff, Entries.exists_lookup_iff, agree.keys]
    rw [addLoose, addLoose, ← taken]
    split
    · exact .error _
    · exact ih (List.rel_append agree (.cons ⟨rfl, .loose own⟩ .nil))

variable {a b : Specification} {A B : ModelArguments}

/-- The values of fragments that compare equal. -/
theorem fragments_agree (same : a.fragments.same b.fragments = .ok true) :
    Entries.Related Value.AreSame a.fragments.data b.fragments.data := by
  refine List.rel_filterMap ?_ (Fragments.same_iff.mp same)
  intro f g agree
  have given : f.hasValue = g.hasValue := by
    have none := Value.AreSame.null_iff agree.value
    have absent (h : Fragment) : h.hasValue = false ↔ h.value = .null := by
      unfold Fragment.hasValue
      split <;> simp_all
    rw [Bool.eq_iff_iff, ← not_iff_not, Bool.not_eq_true, Bool.not_eq_true, absent, absent, none]
  have label : f.label? = g.label? := by rw [Fragment.label?, Fragment.label?, agree.name]
  dsimp only
  rw [agree.block, given, label]
  split
  · cases g.label? with
    | none => exact .none
    | some name => exact .some ⟨rfl, agree.value⟩
  · exact .none

/-- The integers of columns that agree. -/
theorem integers_eq {rows : Nat} {x y : Column rows} (agree : x.Agrees y) :
    integers x = integers y := by
  cases agree <;> rfl

/-- The outcomes of columns of numbers that agree. -/
theorem outcome_endAlike {rows : Nat} {x y : Column rows} (agree : x.Agrees y)
    (numeric : x.isNumeric = true) (kind : ResponseKind) :
    EndAlike Datum.Agrees (outcome kind x) (outcome kind y) := by
  unfold outcome
  split
  · obtain ⟨u, v, made, made', alike⟩ := agree.exists_numbers numeric
    rw [made, made']
    exact .ok (.reals (Column.forall₂_toList alike))
  · rw [integers_eq agree]
    exact .ok (.ints _)

/-- The numbers of trials of specifications that compare equal. -/
theorem trialsData_endAlike (agree : a.Agrees b) :
    EndAlike AreAlike (trialsData a) (trialsData b) := by
  obtain ⟨columns, data, each⟩ := Frame.same_iff.mp agree.data
  unfold trialsData
  rw [← agree.formula, data]
  cases a.formula.trials with
  | none => exact .ok .nil
  | some name =>
    refine (each.column name).bind fun x y same => .pure (.cons ⟨rfl, ?_⟩ .nil)
    rw [integers_eq same]
    exact .ints _

/-- The responses of specifications that compare equal. -/
theorem responseData_endAlike (agree : a.Agrees b) (normal : Specification.IsNormal A a) :
    EndAlike AreAlike (responseData a) (responseData b) := by
  have trials := trialsData_endAlike agree
  obtain ⟨columns, data, each⟩ := Frame.same_iff.mp agree.data
  unfold responseData
  rw [← agree.formula, ← agree.family, data]
  refine (each.column a.formula.response).reached.bind fun x y ⟨same, found, _⟩ => ?_
  have numeric : x.isNumeric = true :=
    normal.isNumeric_outcome (.inl rfl) (Frame.column_eq_ok.mp found)
  exact (outcome_endAlike same numeric _).bind fun _ _ own =>
    trials.bind fun _ _ rest => .pure (.cons ⟨rfl, own⟩ rest)

/-- The entries of a row that are not zero. -/
theorem nonzero_alike {x y : List Float} (alike : List.Forall₂ Alike x y) :
    List.Forall₂ (fun p q => Alike p.1 q.1 ∧ p.2 = q.2) (nonzero x) (nonzero y) := by
  have numbered (start : Nat) :
      List.Forall₂ (fun p q => Alike p.1 q.1 ∧ p.2 = q.2) (x.zipIdx start) (y.zipIdx start) := by
    induction alike generalizing start with
    | nil => exact .nil
    | cons first _ ih => exact .cons ⟨first, rfl⟩ (ih _)
  refine List.rel_filterMap ?_ (numbered 0)
  rintro ⟨u, k⟩ ⟨v, _⟩ ⟨same, rfl⟩
  dsimp only
  rw [same.beq]
  split
  · exact .none
  · exact .some ⟨same, rfl⟩

/-- Rows without their zeros. -/
theorem sparse_alike {x y : List (List Float)} (alike : List.Forall₂ (List.Forall₂ Alike) x y) :
    List.Forall₂ Alike (sparse x).entries (sparse y).entries ∧
      (sparse x).columns = (sparse y).columns ∧ (sparse x).starts = (sparse y).starts := by
  have kept := List.rel_map (fun _ _ row => nonzero_alike row) alike
  unfold sparse
  dsimp only
  generalize x.map nonzero = u at kept ⊢
  generalize y.map nonzero = v at kept ⊢
  refine ⟨?_, ?_, ?_⟩
  · refine List.rel_flatMap kept fun _ _ row => ?_
    exact List.forall₂_map_left_iff.mpr
      (List.forall₂_map_right_iff.mpr (row.imp fun _ _ => And.left))
  · induction kept with
    | nil => rfl
    | cons first _ ih =>
      rw [List.flatMap_cons, List.flatMap_cons, ih]
      congr 1
      induction first with
      | nil => rfl
      | cons own _ ih => rw [List.map_cons, List.map_cons, own.2, ih]
  · congr 1
    induction kept with
    | nil => rfl
    | cons first _ ih => rw [List.map_cons, List.map_cons, first.length_eq, ih]

/-- The rows of columns that are alike. -/
theorem rowsOf_alike {rows : Nat} {x y : List (DesignColumn Float rows)}
    (alike : List.Forall₂ DesignColumn.Alike x y) :
    List.Forall₂ (List.Forall₂ Alike) (rowsOf x) (rowsOf y) := by
  unfold rowsOf
  rw [List.forall₂_map_left_iff, List.forall₂_map_right_iff, List.forall₂_same]
  exact fun row _ => List.rel_map (fun _ _ own => own.cells row) alike

/-- The variables of a formula contribute the same in specifications that compare equal. -/
theorem findAlike (agree : a.Agrees b) (left : Specification.IsNormal A a)
    (right : Specification.IsNormal B b) {columns : List (String × Column a.data.rows)}
    (data : b.data = ⟨a.data.rows, columns⟩)
    (each : Frame.ColumnsAgree a.data.columns columns) :
    Design.FindAlike a.data.predictors (Frame.predictors ⟨a.data.rows, columns⟩)
      a.formula.predictors := by
  intro name used
  have levels := agree.levelsOf?_eq left right used
  rw [data] at levels
  exact Frame.predictors_alike each left.isTaken (data ▸ right.isTaken) levels

/-- The designs of specifications that compare equal. -/
theorem designData_endAlike (agree : a.Agrees b) (left : Specification.IsNormal A a)
    (right : Specification.IsNormal B b) : EndAlike AreAlike (designData a) (designData b) := by
  obtain ⟨columns, data, each⟩ := Frame.same_iff.mp agree.data
  have find := findAlike agree left right data each
  have found : Design.FindAlike a.data.predictors (Frame.predictors ⟨a.data.rows, columns⟩)
      (a.formula.terms.flatMap Term.names) := fun name mem =>
    find name (List.mem_append_left _ mem)
  unfold designData
  rw [← agree.formula, ← agree.sparse, data]
  refine (Design.matrix_alike found).bind fun x y alike => ?_
  have rows := rowsOf_alike alike
  have empty : x.isEmpty = y.isEmpty := by cases alike <;> rfl
  rw [alike.length_eq, empty]
  refine .pure (.cons ⟨rfl, .whole rfl⟩ ?_)
  split
  · obtain ⟨entries, places, starts⟩ := sparse_alike rows
    dsimp only
    rw [entries.length_eq, places, starts]
    exact .cons ⟨rfl, .whole rfl⟩ (.cons ⟨rfl, .reals entries⟩
      (.cons ⟨rfl, .ints _⟩ (.cons ⟨rfl, .ints _⟩ .nil)))
  · refine .cons ⟨rfl, .matrix x.length (fun row mem => ?_) rows⟩ .nil
    obtain ⟨_, _, rfl⟩ := List.mem_map.mp mem
    exact List.length_map _

/-- The Cholesky factors of known covariances that compare equal. -/
theorem covariance_agree {x y : List (String × Covariance)}
    (same : Specification.sameCovariances x y = true) (name : String) :
    Option.Rel (fun u v => (Datum.matrix u).Agrees (.matrix v))
      ((x.lookup name).bind Covariance.cholesky) ((y.lookup name).bind Covariance.cholesky) := by
  have related : Entries.Related (fun u v => Covariance.same u v = true) x y := by
    simpa [Entries.related_iff, Specification.sameCovariances] using same
  have found := related.lookup name
  generalize x.lookup name = u at found ⊢
  generalize y.lookup name = v at found ⊢
  cases found with
  | none => exact .none
  | @some u v same =>
    have factors := Covariance.cholesky_alike same
    rw [Option.bind_some, Option.bind_some]
    cases made : u.cholesky with
    | none =>
      rw [made] at factors
      generalize v.cholesky = other at factors ⊢
      cases factors
      exact .none
    | some rows =>
      rw [made] at factors
      generalize v.cholesky = other at factors ⊢
      cases factors with
      | some alike => exact .some (.matrix u.size (Covariance.cholesky_shape made).2 alike)

/-- The numbers of effects that count as the same. -/
theorem effects_agree {m n : Nat} {x : List (DesignColumn Float m)}
    {y : List (DesignColumn Float n)}
    (alike : List.Forall₂ (fun c d => List.Forall₂ Alike c.cells.toList d.cells.toList) x y)
    (i : Nat) :
    AreAlike (x.zipIdx.map fun (column, k) =>
        (Variable.effectDesign i (k + 1), Datum.reals column.cells.toList))
      (y.zipIdx.map fun (column, k) =>
        (Variable.effectDesign i (k + 1), Datum.reals column.cells.toList)) := by
  unfold AreAlike Entries.Related
  rw [List.forall₂_map_left_iff, List.forall₂_map_right_iff]
  generalize 0 = start
  induction alike generalizing start with
  | nil => exact .nil
  | cons first _ ih => exact .cons ⟨rfl, .reals first⟩ (ih _)

/-- The designs of a group-level term. -/
theorem groupMatrix_endAlike (agree : a.Agrees b) (left : Specification.IsNormal A a)
    (right : Specification.IsNormal B b) {term : GroupTerm} (listed : term ∈ a.formula.groupTerms) :
    EndAlike (List.Forall₂ fun c d => List.Forall₂ Alike c.cells.toList d.cells.toList)
      (Design.groupMatrix a.data.predictors term) (Design.groupMatrix b.data.predictors term) := by
  obtain ⟨columns, data, each⟩ := Frame.same_iff.mp agree.data
  have find := findAlike agree left right data each
  have found : Design.FindAlike a.data.predictors (Frame.predictors ⟨a.data.rows, columns⟩)
      (term.terms.flatMap Term.names) := fun name inside =>
    find name (List.mem_append_right _ (List.mem_flatMap.mpr
      ⟨term, listed, List.mem_append_left _ inside⟩))
  rw [data]
  exact (Design.groupMatrix_alike found).imp fun x y alike =>
    alike.imp fun _ _ own => Column.forall₂_toList own.cells

/-- The places of the observations among the levels of a group. -/
theorem groupIndex_endAlike (agree : a.Agrees b) (left : Specification.IsNormal A a)
    (right : Specification.IsNormal B b) {term : GroupTerm} (listed : term ∈ a.formula.groupTerms) :
    EndAlike Eq (a.data.groupIndex term.group) (b.data.groupIndex term.group) := by
  obtain ⟨columns, data, each⟩ := Frame.same_iff.mp agree.data
  have used : term.group ∈ a.formula.predictors :=
    List.mem_append_right _ (List.mem_flatMap.mpr
      ⟨term, listed, List.mem_append_right _ (List.mem_singleton.mpr rfl)⟩)
  have levels := agree.levelsOf?_eq left right used
  rw [data] at levels ⊢
  exact Frame.groupIndex_endAlike each left.isTaken (data ▸ right.isTaken) levels

/-- The data of a group-level term. -/
theorem groupData_endAlike (agree : a.Agrees b) (left : Specification.IsNormal A a)
    (right : Specification.IsNormal B b) {group : Group} (mem : group ∈ a.terms.groups) :
    EndAlike AreAlike (groupData a group) (groupData b group) := by
  have listed : group.term ∈ a.formula.groupTerms := by
    rw [← left.groups.terms]
    exact List.mem_map_of_mem mem
  refine (groupMatrix_endAlike agree left right listed).bind fun x y alike => ?_
  refine (groupIndex_endAlike agree left right listed).lift.bind ?_
  rintro index _ rfl
  refine .pure (List.rel_append (List.rel_append ?_ (effects_agree alike group.id)) ?_)
  · exact .cons ⟨rfl, .whole rfl⟩ (.cons ⟨rfl, .whole rfl⟩ (.cons ⟨rfl, .ints _⟩ .nil))
  · split
    · have covariance := covariance_agree agree.covariances group.factor
      have here : group.term.group = group.factor := rfl
      generalize (a.covariances.lookup group.factor).bind _ = x at covariance ⊢
      generalize (b.covariances.lookup group.factor).bind _ = y at covariance ⊢
      cases covariance with
      | none => exact .nil
      | some own => exact .cons ⟨rfl, own⟩ .nil
    · exact .nil

/-- The data of the residuals. -/
theorem lagData_endAlike (agree : a.Agrees b) (left : Specification.IsNormal A a)
    (right : Specification.IsNormal B b) : EndAlike AreAlike (lagData a) (lagData b) := by
  obtain ⟨columns, data, each⟩ := Frame.same_iff.mp agree.data
  have same := agree.autocorrelation
  unfold lagData
  rw [data]
  cases structured : a.autocorrelation with
  | none =>
    cases structured' : b.autocorrelation with
    | none => exact .ok .nil
    | some => rw [structured, structured'] at same; cases same
  | some p =>
    cases structured' : b.autocorrelation with
    | none => rw [structured, structured'] at same; cases same
    | some q =>
      rw [structured, structured'] at same
      simp only [TermTree.sameAutocorrelation, Autocorrelation.same, Bool.and_eq_true,
        beq_iff_eq] at same
      obtain ⟨⟨order, _⟩, group⟩ := same
      have lags := Autocorrelation.lags_eq each left.isTaken (data ▸ right.isTaken) order group
      dsimp only
      rw [← lags]
      have itself : EndAlike Eq (p.lags ⟨a.data.rows, a.data.columns⟩)
          (p.lags ⟨a.data.rows, a.data.columns⟩) := .refl (fun _ => rfl) _
      refine itself.lift.bind ?_
      rintro values _ rfl
      exact .pure (.cons ⟨rfl, .whole order⟩ (.cons ⟨rfl, .ints _⟩ .nil))

/-- The data of knots. -/
theorem knots_agree {x y : List (String × List Float)}
    (same : Specification.sameKnots x y = true) :
    AreAlike (x.flatMap fun (name, values) => knotData name values)
      (y.flatMap fun (name, values) => knotData name values) := by
  refine List.rel_flatMap (Specification.sameKnots_iff.mp same) fun p q each => ?_
  obtain ⟨name, equal⟩ := each
  dsimp only
  rw [name, knotData, knotData, equal.length_eq]
  exact .cons ⟨rfl, .whole rfl⟩
    (.cons ⟨rfl, .reals (equal.imp fun _ _ => Number.alike_of_beq)⟩ .nil)

/-- The data of specifications that compare equal. -/
theorem generated_endAlike (agree : a.Agrees b) (left : Specification.IsNormal A a)
    (right : Specification.IsNormal B b) : EndAlike AreAlike (generated a) (generated b) := by
  have rows : a.data.rows = b.data.rows := by
    obtain ⟨columns, data, _⟩ := Frame.same_iff.mp agree.data
    rw [data]
  unfold generated
  rw [← agree.tree.2, ← agree.samplePrior, ← rows]
  refine (responseData_endAlike agree left).lift.bind fun _ _ response => ?_
  refine (designData_endAlike agree left right).bind fun _ _ design => ?_
  refine (EndAlike.mapM (List.forall₂_same.mpr fun _ mem =>
    groupData_endAlike agree left right mem)).bind fun _ _ groups => ?_
  refine (lagData_endAlike agree left right).bind fun _ _ lags => .pure ?_
  refine List.rel_append (List.rel_append (List.rel_append (List.rel_append (List.rel_append
    (.cons ⟨rfl, .whole rfl⟩ response) design) (List.rel_flatten groups)) lags)
    (knots_agree agree.knots)) (.cons ⟨rfl, .whole rfl⟩ .nil)

/-- The data of programs of specifications that compare equal. -/
theorem ofSpecification_endAlike (agree : a.Agrees b) (left : Specification.IsNormal A a)
    (right : Specification.IsNormal B b) :
    EndAlike AreAlike (ofSpecification a) (ofSpecification b) :=
  (generated_endAlike agree left right).bind fun _ _ values =>
    (addLoose_endAlike (fragments_agree agree.fragments) (ofValues_agree values)).lift

end BuildData

end Multilevel
