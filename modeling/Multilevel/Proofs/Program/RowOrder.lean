import Multilevel.Proofs.Entries
import Multilevel.Proofs.Model.RowOrder
import Multilevel.Proofs.Program.BuildData

/-!
# Data of a program for rows in another order

Some data variables hold one value per observation: the response, the numbers of trials, the rows of
the design, the levels of groups and their design columns. With the rows of the data in another order
these hold their values in that order, and all others hold what they held
(`BuildData.ofSpecification_pick`). So the order of the given rows decides nothing about a model but
the order of its observations (`Specification.normalize_of_reordered`).
-/
namespace Multilevel

/-- Whether a variable of the data holds one value per observation. -/
def Variable.isPerObservation : Variable → Bool
  | response | trials | design | levelIndex _ | effectDesign _ _ => true
  | _ => false

/-- Whether data hold one value per row, and other data these values in an order. -/
inductive Datum.IsReordered {rows : Nat} (order : List (Fin rows)) : Datum → Datum → Prop where
  | ints (values : Vector Int rows) :
    IsReordered order (.ints values.toList) (.ints (order.map values.get))
  | reals (values : Vector Float rows) :
    IsReordered order (.reals values.toList) (.reals (order.map values.get))
  | matrix (values : Vector (List Float) rows) :
    IsReordered order (.matrix values.toList) (.matrix (order.map values.get))

namespace BuildData

/-- Whether data that a program is given are the same, or in an order if there is one value per
observation. -/
inductive EntryIsReordered {rows : Nat} (order : List (Fin rows)) :
    String × Datum → String × Datum → Prop where
  | observed {v : Variable} {datum datum' : Datum} (own : v.isPerObservation = true)
    (moved : datum.IsReordered order datum') :
    EntryIsReordered order (v.name, datum) (v.name, datum')
  | other {v : Variable} {datum : Datum} (other : v.isPerObservation = false) :
    EntryIsReordered order (v.name, datum) (v.name, datum)
  | loose (name : String) (value : Value) :
    EntryIsReordered order (name, .loose value) (name, .loose value)

/-- Whether two data sets are the same under the same names, apart from the order of the
observations. -/
def IsReordered {rows : Nat} (order : List (Fin rows)) (x y : BuildData) : Prop :=
  List.Forall₂ (EntryIsReordered order) x y

/-- Whether the values of two lists of variables are the same apart from the order of the
observations. -/
def AreReordered {rows : Nat} (order : List (Fin rows)) (x y : List (Variable × Datum)) : Prop :=
  List.Forall₂ (fun given other => other.1 = given.1 ∧
    if given.1.isPerObservation then given.2.IsReordered order other.2 else other.2 = given.2) x y

section Lists

variable {rows : Nat} {order : List (Fin rows)}

/-- Values of variables of which none is per observation. -/
theorem AreReordered.refl {values : List (Variable × Datum)}
    (plain : ∀ entry ∈ values, entry.1.isPerObservation = false) :
    AreReordered order values values := by
  refine List.forall₂_same.mpr fun entry mem => ⟨rfl, ?_⟩
  rw [plain entry mem]
  rfl

/-- Data stand under the same names. -/
theorem EntryIsReordered.name {p q : String × Datum} (step : EntryIsReordered order p q) :
    q.1 = p.1 := by
  cases step <;> rfl

/-- Data stand under the same names. -/
theorem IsReordered.names {x y : BuildData} (all : IsReordered order x y) :
    y.map Prod.fst = x.map Prod.fst := by
  unfold IsReordered at all
  induction all with
  | nil => rfl
  | cons first _ ih => rw [List.map_cons, List.map_cons, first.name, ih]

/-- Values of variables under the names of these. -/
theorem ofValues_reordered {x y : List (Variable × Datum)} (all : AreReordered order x y) :
    IsReordered order (ofValues x) (ofValues y) := by
  refine Entries.forall₂_putAll (fun _ _ step => step.name) (List.rel_map ?_ all)
  rintro ⟨v, datum⟩ ⟨_, datum'⟩ ⟨rfl, own⟩
  dsimp only at own
  split at own
  · rename_i observed
    exact .observed observed own
  · rename_i plain
    exact own ▸ .other (Bool.eq_false_of_not_eq_true plain)

/-- The values of the user follow the data of the program, or clash with the same name. -/
theorem addLoose_reordered (loose : List (String × Value)) {x y : BuildData}
    (all : IsReordered order x y) :
    EndAlike (IsReordered order) (addLoose loose x) (addLoose loose y) := by
  induction loose generalizing x y with
  | nil => exact .ok all
  | cons first rest ih =>
    obtain ⟨name, value⟩ := first
    have taken : (x.lookup name).isSome = (y.lookup name).isSome := by
      rw [Bool.eq_iff_iff, Option.isSome_iff_exists, Option.isSome_iff_exists,
        Entries.exists_lookup_iff, Entries.exists_lookup_iff, all.names]
    rw [addLoose, addLoose, ← taken]
    split
    · exact .error _
    · exact ih (List.rel_append all (.cons (.loose name value) .nil))

/-- Picked integers. -/
theorem ints_of_isPicked {values : Vector Int rows} {values' : Vector Int order.length}
    (picked : IsPicked order values values') :
    Datum.IsReordered order (.ints values.toList) (.ints values'.toList) := by
  rw [picked.toList]
  exact .ints values

/-- Picked numbers. -/
theorem reals_of_isPicked {values : Vector Float rows} {values' : Vector Float order.length}
    (picked : IsPicked order values values') :
    Datum.IsReordered order (.reals values.toList) (.reals values'.toList) := by
  rw [picked.toList]
  exact .reals values

/-- The rows of columns that are picked. -/
theorem rowsOf_reordered {x : List (DesignColumn Float rows)}
    {y : List (DesignColumn Float order.length)}
    (related : List.Forall₂ (DesignColumn.Related (IsPicked order)) x y) :
    Datum.IsReordered order (.matrix (rowsOf x)) (.matrix (rowsOf y)) := by
  have listed {n : Nat} (columns : List (DesignColumn Float n)) : rowsOf columns =
      (Vector.ofFn fun row => columns.map fun column => column.cells.get row).toList := by
    rw [rowsOf, Vector.toList_ofFn, List.ofFn_eq_map]
  have each (row : Fin order.length) : (y.map fun column => column.cells.get row) =
      x.map fun column => column.cells.get (order.get row) := by
    induction related with
    | nil => rfl
    | cons first _ ih => rw [List.map_cons, List.map_cons, first.cells row, ih]
  have picked : IsPicked order
      (Vector.ofFn fun row => x.map fun column => column.cells.get row)
      (Vector.ofFn fun row => y.map fun column => column.cells.get row) := by
    intro row
    simpa [Vector.get_eq_getElem] using each row
  rw [listed, listed, picked.toList]
  exact .matrix _

/-- The integers of a column whose rows are picked. -/
theorem integers_reordered {column : Column rows} (integral : column.IsInt) :
    Datum.IsReordered order (.ints (integers column)) (.ints (integers (column.pick order))) := by
  cases column with
  | int cells =>
    rw [Column.pick_eq_along]
    exact ints_of_isPicked (.ofFn order cells)
  | _ => cases integral

/-- The response of picked rows. -/
theorem outcome_reordered (all : ∀ row, row ∈ order) {kind : ResponseKind} {response : Column rows}
    (numeric : response.isNumeric = true) (integral : kind ≠ .real → response.IsInt) :
    EndAlike (Datum.IsReordered order) (outcome kind response)
      (outcome kind (response.pick order)) := by
  unfold outcome
  by_cases real : kind = .real
  · rw [if_pos real, if_pos real]
    obtain ⟨values, valued⟩ := Column.exists_numbers numeric
    obtain ⟨values', valued', picked⟩ := (response.numbers_pick all).exists_ok valued
    rw [valued, valued']
    exact .ok (reals_of_isPicked picked)
  · rw [if_neg real, if_neg real]
    exact .ok (integers_reordered (integral real))

end Lists

section Specification

open Specification (IsNormal)

variable {a : ModelArguments} {s : Specification} {order : List (Fin s.data.rows)}

/-- The number of trials of picked rows. -/
theorem trialsData_pick (normal : IsNormal a s) :
    EndAlike (AreReordered order) (trialsData s)
      (trialsData { s with data := s.data.pick order }) := by
  unfold trialsData
  dsimp only
  cases tried : s.formula.trials with
  | none => exact .ok .nil
  | some name =>
    refine (s.data.column_pick order name).reached.bind ?_
    rintro column _ ⟨rfl, found, _⟩
    obtain ⟨raw, origin, _, clean⟩ := normal.clean
    obtain ⟨trials, integers, same, here, integral⟩ :=
      clean.trials (normal.trials.mp (Option.isSome_of_eq_some tried))
    obtain rfl := Option.some.inj (tried.symm.trans same)
    obtain rfl := Option.some.inj ((Frame.column_eq_ok.mp found).symm.trans here)
    exact .ok (.cons ⟨rfl, integers_reordered integral⟩ .nil)

/-- The response and the number of trials of picked rows. -/
theorem responseData_pick (normal : IsNormal a s) (all : ∀ row, row ∈ order) :
    EndAlike (AreReordered order) (responseData s)
      (responseData { s with data := s.data.pick order }) := by
  have trials : EndAlike (AreReordered order) (trialsData s)
      (trialsData { s with data := s.data.pick order }) := trialsData_pick normal
  unfold responseData
  dsimp only
  refine (s.data.column_pick order s.formula.response).reached.bind ?_
  rintro response _ ⟨rfl, found, _⟩
  obtain ⟨raw, origin, _, clean⟩ := normal.clean
  obtain ⟨column, here, numeric, integral⟩ := clean.response
  obtain rfl := Option.some.inj ((Frame.column_eq_ok.mp found).symm.trans here)
  refine (outcome_reordered all numeric integral).bind fun outcome outcome' own => ?_
  exact trials.bind fun _ _ rest => .pure (.cons ⟨rfl, own⟩ rest)

/-- The design of picked rows, which is not sparse. -/
theorem designData_pick (normal : IsNormal a s) (all : ∀ row, row ∈ order)
    (dense : s.sparse = false) :
    EndAlike (AreReordered order) (designData s)
      (designData { s with data := s.data.pick order }) := by
  unfold designData
  dsimp only
  rw [dense]
  refine (Design.matrix_related (Design.isKept_picked order)
    (Design.areRelated_pick normal.isTaken all _)).bind fun x y related => ?_
  rw [related.length_eq]
  exact .ok (.cons ⟨rfl, rfl⟩ (.cons ⟨rfl, rowsOf_reordered related⟩ .nil))

/-- The places of the levels of picked rows. -/
theorem groupIndex_pick (name : String) :
    EndAlike (fun index index' =>
        Datum.IsReordered order (.ints (index.map Int.ofNat)) (.ints (index'.map Int.ofNat)))
      (s.data.groupIndex name) ((s.data.pick order).groupIndex name) := by
  unfold Frame.groupIndex
  refine (s.data.column_pick order name).bind ?_
  rintro column _ rfl
  cases column with
  | factor levels codes =>
    have moved (place : Option (Fin levels.length) → Nat) : Datum.IsReordered order
        (.ints ((codes.toList.map place).map Int.ofNat))
        (.ints (((Vector.ofFn fun row => codes.get (order.get row)).toList.map place).map Int.ofNat)) := by
      rw [List.map_map, List.map_map, ← Vector.toList_map, ← Vector.toList_map]
      exact ints_of_isPicked ((IsPicked.ofFn order codes).map _)
    rw [Column.pick_eq_along]
    exact .ok (moved _)
  | _ => exact .error _

/-- The design columns of a group. -/
theorem effects_pick {x : List (DesignColumn Float s.data.rows)}
    {y : List (DesignColumn Float order.length)}
    (related : List.Forall₂ (DesignColumn.Related (IsPicked order)) x y) (i : Nat) :
    AreReordered order (x.zipIdx.map fun (column, k) =>
        (Variable.effectDesign i (k + 1), Datum.reals column.cells.toList))
      (y.zipIdx.map fun (column, k) =>
        (Variable.effectDesign i (k + 1), Datum.reals column.cells.toList)) := by
  unfold AreReordered
  rw [List.forall₂_map_left_iff, List.forall₂_map_right_iff]
  generalize 0 = start
  induction related generalizing start with
  | nil => exact .nil
  | cons first _ ih => exact .cons ⟨rfl, reals_of_isPicked first.cells⟩ (ih _)

/-- The data of a group-level term for picked rows. -/
theorem groupData_pick (normal : IsNormal a s) (all : ∀ row, row ∈ order) (group : Group) :
    EndAlike (AreReordered order) (groupData s group)
      (groupData { s with data := s.data.pick order } group) := by
  unfold groupData
  dsimp only
  refine (Design.groupMatrix_related (Design.isKept_picked order)
    (Design.areRelated_pick normal.isTaken all _)).bind fun x y related => ?_
  refine (groupIndex_pick group.factor).lift.bind fun index index' moved => .pure ?_
  refine List.rel_append (List.rel_append ?_ (effects_pick related group.id))
    (AreReordered.refl ?_)
  · exact .cons ⟨rfl, rfl⟩ (.cons ⟨rfl, rfl⟩ (.cons ⟨rfl, moved⟩ .nil))
  · intro entry mem
    split at mem
    · split at mem
      · obtain rfl := List.mem_singleton.mp mem
        rfl
      · cases mem
    · cases mem

/-- The data of a program for picked rows. -/
theorem generated_pick (normal : IsNormal a s) (perm : order.Perm (List.finRange s.data.rows))
    (free : s.autocorrelation = none) (dense : s.sparse = false) :
    EndAlike (AreReordered order) (generated s)
      (generated { s with data := s.data.pick order }) := by
  have all := mem_of_perm perm
  have size : order.length = s.data.rows := perm.length_eq.trans (List.length_finRange ..)
  unfold generated
  refine (responseData_pick normal all).lift.bind fun _ _ response => ?_
  refine (designData_pick normal all dense).bind fun _ _ design => ?_
  refine (EndAlike.mapM (List.forall₂_same.mpr fun group _ =>
    groupData_pick normal all group)).bind fun _ _ groups => ?_
  have lags : EndAlike (AreReordered order) (lagData s)
      (lagData { s with data := s.data.pick order }) := by
    unfold lagData
    dsimp only
    rw [free]
    exact .ok .nil
  have knots : AreReordered order (s.knots.flatMap fun entry => knotData entry.1 entry.2)
      (s.knots.flatMap fun entry => knotData entry.1 entry.2) := by
    refine .refl fun entry mem => ?_
    obtain ⟨⟨name, values⟩, _, inside⟩ := List.mem_flatMap.mp mem
    rcases List.mem_cons.mp inside with rfl | inside
    · rfl
    · obtain rfl := List.mem_singleton.mp inside
      rfl
  refine lags.bind fun _ _ lags => .pure ?_
  exact List.rel_append (List.rel_append (List.rel_append (List.rel_append (List.rel_append
    (.cons ⟨rfl, congrArg Datum.ofNat size⟩ response) design) (List.rel_flatten groups)) lags)
    knots) (.cons ⟨rfl, rfl⟩ .nil)

/-- The data of a program and of the user for picked rows. -/
theorem ofSpecification_pick (normal : IsNormal a s)
    (perm : order.Perm (List.finRange s.data.rows)) (free : s.autocorrelation = none)
    (dense : s.sparse = false) :
    EndAlike (IsReordered order) (ofSpecification s)
      (ofSpecification { s with data := s.data.pick order }) :=
  (generated_pick normal perm free dense).bind fun _ _ values =>
    (addLoose_reordered s.fragments.data (ofValues_reordered values)).lift

end Specification

end BuildData

namespace Specification

/-- Whether a specification is another one with its rows in the order in which the rows of a table are
picked, so that its program is given the data of the other one in that order. -/
def IsReordered (frame : Frame) (chosen : List (Fin frame.rows)) (s s' : Specification) : Prop :=
  ∃ order : List (Fin s.data.rows),
    Cleaning.Follows (keptRows s.formula none frame) chosen order ∧
      s' = { s with data := s.data.pick order } ∧
      EndAlike (BuildData.IsReordered order) (BuildData.ofSpecification s)
        (BuildData.ofSpecification s')

/-- The order of the given rows carries no information. Without a structure of the residuals, and with
a design that is not sparse, a model of the rows in another order is accepted or refused alike: its
specification is the same, and its data are, apart from the order of the observations. Two refusals
differ only if cells of the number of trials fail in two ways. With series and times that tell the
kept rows apart, the specification is the same throughout. -/
theorem normalize_of_reordered {a : ModelArguments} {data : DataSource} {frame : Frame}
    {chosen : List (Fin frame.rows)} (given : a.data.frame = .ok frame)
    (moved : data.frame = .ok (frame.pick chosen))
    (perm : chosen.Perm (List.finRange frame.rows)) :
    (a.autocorrelation = none → a.sparse = false →
      EndTogether (FailAlike (TrialsFail a frame)) (IsReordered frame chosen)
        (normalize a).outcome (normalize { a with data }).outcome) ∧
    ∀ r s, a.autocorrelation = some r → r.time.isSome = true → r.group.isSome = true →
      (normalize a).outcome = .ok s → s.data.IsKeyedBy r.keys →
        (normalize { a with data }).outcome = .ok s := by
  refine ⟨fun free dense => ?_, fun r s structured timed grouped done keyed => ?_⟩
  · refine (normalize_pick given moved perm free).reached.imp (fun _ _ => id) ?_
    rintro s _ ⟨⟨order, follows, rfl⟩, done, _⟩
    have made := normalize_eq_ok_iff.mp done
    exact ⟨order, follows, rfl, BuildData.ofSpecification_pick (normalize_spec done) follows.1
      (made.autocorrelation.trans free) (made.sparse.trans dense)⟩
  · exact normalize_pick_ordered given moved perm structured timed grouped done keyed

/-- A small table of two series, whose observations are in no order. -/
def seriesTable : Frame := ⟨3, [("y", .int #[3, 5, 4].toVector), ("t", .int #[10, 7, 2].toVector),
  ("g", Column.withLevels (.text #[some "a", some "b", some "a"].toVector) ["a", "b"])]⟩

/-- A small model of the two series, with some structure of the residuals. -/
def seriesModel (residuals : Option Autocorrelation) : ModelArguments where
  formula := "y ~ t + (1 | g)"
  data := .table seriesTable
  autocorrelation := residuals

/-- The residuals of each series follow each other in time. -/
def seriesResiduals : Autocorrelation := ⟨3, some "t", some "g", by decide⟩

/-- The rows of the small table, the last one first. -/
def lastFirst : List (Fin seriesTable.rows) := ([2, 0, 1] : List (Fin 3))

/-- The small model has its data in the order of the rows, and in that of the times if its residuals
follow them. -/
theorem series_of_reordered :
    (∃ s s', (normalize (seriesModel none)).outcome = .ok s ∧
      (normalize { seriesModel none with data := .table (seriesTable.pick lastFirst) }).outcome =
        .ok s' ∧ IsReordered seriesTable lastFirst s s') ∧
    ∃ s, (normalize (seriesModel (some seriesResiduals))).outcome = .ok s ∧
      (normalize { seriesModel (some seriesResiduals) with
        data := .table (seriesTable.pick lastFirst) }).outcome = .ok s := by
  have perm : lastFirst.Perm (List.finRange seriesTable.rows) := by decide +kernel
  have given (residuals) : (seriesModel residuals).data.frame = .ok seriesTable := rfl
  have moved : (DataSource.table (seriesTable.pick lastFirst)).frame =
    .ok (seriesTable.pick lastFirst) := rfl
  constructor
  · obtain ⟨s, accepted, _⟩ := exists_of_any (normalize (seriesModel none)).outcome
      (fun _ => true) (by decide +kernel)
    have alike := (normalize_of_reordered (given none) moved perm).1 rfl rfl
    obtain ⟨s', accepted', reordered⟩ := alike.exists_ok accepted
    exact ⟨s, s', accepted, accepted', reordered⟩
  · have computed : (normalize (seriesModel (some seriesResiduals))).outcome.toOption.any
        (fun s => (Cleaning.unordered seriesTable s.formula s.family s.autocorrelation
          []).toOption.any fun checked => decide (checked.IsKeyedBy ["g", "t"])) = true := by
      decide +kernel
    obtain ⟨s, accepted, found⟩ := exists_of_any _ _ computed
    obtain ⟨checked, found, keyed⟩ := exists_of_any _ _ found
    have distinct := isKeyedBy_data (given _) accepted found (of_decide_eq_true keyed)
    exact ⟨s, accepted, (normalize_of_reordered (given _) moved perm).2 seriesResiduals s rfl rfl rfl
      accepted distinct⟩

/-- A small table whose numbers of trials are a text and a record. -/
def trialTable : Frame :=
  ⟨2, [("y", .int #[1, 2].toVector), ("n", .mixed #[.text "a", .record []].toVector)]⟩

/-- A small model of the numbers of trials. -/
def trialModel (data : DataSource) : ModelArguments where
  formula := "y | trials(n) ~ 1"
  data := data
  family := .named "binomial"

/-- The rows of the table, the second one first. -/
def secondFirst : List (Fin trialTable.rows) := ([1, 0] : List (Fin 2))

/-- Which fault the numbers of trials are refused with depends on the order of the rows. -/
theorem trials_depend_on_order :
    secondFirst.Perm (List.finRange trialTable.rows) ∧
      (normalize (trialModel (.table trialTable))).outcome = .error (.fault .unconvertible) ∧
      (normalize (trialModel (.table (trialTable.pick secondFirst)))).outcome =
        .error (.fault .unsupported) :=
  ⟨by decide +kernel, eq_error_of_error? (by decide +kernel),
    eq_error_of_error? (by decide +kernel)⟩

end Specification

end Multilevel
