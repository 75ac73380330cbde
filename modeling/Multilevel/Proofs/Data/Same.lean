import Multilevel.Data.Lags
import Multilevel.Proofs.Data.Cleaning
import Multilevel.Proofs.EndAlike
import Multilevel.Proofs.Entries
import Multilevel.Proofs.Number.Alike

/-!
# Tables that compare equal

Tables compare equal if they have as many rows and, under the same names, columns that agree
(`Frame.same_iff`). Columns agree that hold the same numbers but for the signs of zeros, the same
texts, or the same levels of factors whose levels are the same in whatever order
(`Column.same_iff`). What tells the rows of a series apart in one of them does so in the other.
-/
namespace Multilevel

namespace Column

variable {rows : Nat} {x y : Column rows}

/-- How columns agree that compare equal. -/
inductive Agrees : Column rows → Column rows → Prop where
  | float {a b} (cells : ∀ row, Number.Alike (a.get row) (b.get row)) : Agrees (.float a) (.float b)
  | int (a) : Agrees (.int a) (.int a)
  | unsigned (a) : Agrees (.unsigned a) (.unsigned a)
  | bool (a) : Agrees (.bool a) (.bool a)
  | text (a) : Agrees (.text a) (.text a)
  | mixed {a b} (cells : ∀ row, (a.get row).display = (b.get row).display) :
    Agrees (.mixed a) (.mixed b)
  | factor {levels levels' a b} (listed : ∀ text, text ∈ levels ↔ text ∈ levels')
    (cells : ∀ row, (a.get row).map levels.get = (b.get row).map levels'.get) :
    Agrees (.factor levels a) (.factor levels' b)

/-- A condition on all pairs of cells. -/
theorem all_zip_iff {α β : Type} (a : Vector α rows) (b : Vector β rows) (holds : α × β → Bool) :
    (a.toList.zip b.toList).all holds = true ↔ ∀ row, holds (a.get row, b.get row) = true := by
  rw [List.all_eq_true]
  constructor
  · intro all row
    refine all _ ?_
    rw [List.mem_iff_getElem]
    exact ⟨row, by simp, by simp [Vector.get_eq_getElem]⟩
  · intro all pair mem
    obtain ⟨place, inside, rfl⟩ := List.getElem_of_mem mem
    rw [List.length_zip, Vector.length_toList, Vector.length_toList, Nat.min_self] at inside
    simpa [Vector.get_eq_getElem] using all ⟨place, inside⟩

/-- Lists of what cells are mapped to agree cell by cell. -/
theorem map_toList_eq_iff {α β γ : Type} (a : Vector α rows) (b : Vector β rows)
    (f : α → γ) (g : β → γ) :
    a.toList.map f = b.toList.map g ↔ ∀ row, f (a.get row) = g (b.get row) := by
  constructor
  · intro same row
    have here := congrArg (·[row.val]?) same
    simpa [Vector.get_eq_getElem] using here
  · intro same
    refine List.ext_getElem (by simp) fun place inside _ => ?_
    rw [List.length_map, Vector.length_toList] at inside
    simpa [Vector.get_eq_getElem] using same ⟨place, inside⟩

/-- Vectors related cell by cell are related as lists. -/
theorem forall₂_toList {α β : Type} {related : α → β → Prop} {a : Vector α rows} {b : Vector β rows}
    (cells : ∀ row, related (a.get row) (b.get row)) : List.Forall₂ related a.toList b.toList := by
  rw [List.forall₂_iff_get]
  refine ⟨by simp, fun place inside _ => ?_⟩
  rw [Vector.length_toList] at inside
  simpa [Vector.get_eq_getElem] using cells ⟨place, inside⟩

/-- Columns compare equal exactly if they agree. -/
theorem same_iff : x.same y = true ↔ x.Agrees y := by
  constructor
  · intro same
    cases x <;> cases y <;> first | exact absurd same Bool.false_ne_true | skip
    · exact .float ((all_zip_iff ..).mp same)
    · exact eq_of_beq same ▸ .int _
    · exact eq_of_beq same ▸ .unsigned _
    · exact eq_of_beq same ▸ .bool _
    · exact eq_of_beq same ▸ .text _
    · exact .mixed fun row => eq_of_beq ((all_zip_iff ..).mp same row)
    · simp only [Column.same, Bool.and_eq_true, List.all_eq_true, List.contains_iff_mem,
        beq_iff_eq, map_toList_eq_iff] at same
      obtain ⟨⟨left, right⟩, cells⟩ := same
      exact .factor (fun text => ⟨left text, right text⟩) fun row => cells row
  · intro agree
    cases agree with
    | float cells => exact (all_zip_iff ..).mpr cells
    | mixed cells => exact (all_zip_iff ..).mpr fun row => beq_iff_eq.mpr (cells row)
    | factor listed cells =>
      simp only [Column.same, Bool.and_eq_true, List.all_eq_true, List.contains_iff_mem,
        beq_iff_eq, map_toList_eq_iff]
      exact ⟨⟨fun text => (listed text).mp, fun text => (listed text).mpr⟩, fun row => cells row⟩
    | _ => exact beq_self_eq_true _

namespace Agrees

/-- A column agrees with itself. -/
theorem refl (x : Column rows) : x.Agrees x := by
  cases x with
  | float => exact .float fun _ => .refl _
  | mixed => exact .mixed fun _ => rfl
  | factor => exact .factor (fun _ => .rfl) fun _ => rfl
  | _ => constructor

/-- Which of two columns is named first does not matter. -/
theorem symm (agree : x.Agrees y) : y.Agrees x := by
  cases agree with
  | float cells => exact .float fun row => (cells row).symm
  | mixed cells => exact .mixed fun row => (cells row).symm
  | factor listed cells =>
    exact .factor (fun text => (listed text).symm) fun row => (cells row).symm
  | _ => constructor

/-- Columns that agree hold numbers both or neither. -/
theorem isNumeric (agree : x.Agrees y) : x.isNumeric = y.isNumeric := by
  cases agree <;> rfl

/-- Columns of numbers that agree hold the same numbers. -/
theorem exists_numbers (agree : x.Agrees y) (numeric : x.isNumeric = true) :
    ∃ u v, x.numbers = .ok u ∧ y.numbers = .ok v ∧
      ∀ row, Number.Alike (u.get row) (v.get row) := by
  cases agree with
  | float cells => exact ⟨_, _, rfl, rfl, cells⟩
  | int | unsigned => exact ⟨_, _, rfl, rfl, fun _ => .refl _⟩
  | _ => cases numeric

/-- Factors that agree have the same level in each cell. -/
theorem level? (agree : x.Agrees y) (factor : x.isFactor = true) (row : Fin rows) :
    x.level? row = y.level? row := by
  cases agree with
  | factor _ cells => rw [level?_factor, level?_factor, cells row]
  | _ => cases factor

/-- Columns that agree are factors with the same levels in some order, or none is a factor. -/
theorem levels?_cases (agree : x.Agrees y) :
    (x.levels? = none ∧ y.levels? = none) ∨ ∃ levels levels', x.levels? = some levels ∧
      y.levels? = some levels' ∧ ∀ text, text ∈ levels ↔ text ∈ levels' := by
  cases agree with
  | factor listed => exact .inr ⟨_, _, rfl, rfl, listed⟩
  | _ => exact .inl ⟨rfl, rfl⟩

/-- Factors that agree and list their levels in the same order are the same. -/
theorem eq_of_levels? (agree : x.Agrees y) {levels : List String} (distinct : levels.Nodup)
    (left : x.levels? = some levels) (right : y.levels? = some levels) : x = y := by
  cases agree with
  | @factor _ _ a b _ cells =>
    cases left
    cases right
    have injective := List.nodup_iff_injective_get.mp distinct
    have same : a = b := by
      refine Vector.ext fun place inside => ?_
      simpa [Vector.get_eq_getElem] using Option.map_injective injective (cells ⟨place, inside⟩)
    rw [same]
  | _ => cases left

/-- Cells of a factor without repeated levels count as the same exactly if their levels are. -/
theorem key?_eq_iff {levels : List String} (spanned : x.IsSpanned levels) (i j : Fin rows) :
    x.key? i = x.key? j ↔ x.level? i = x.level? j := by
  cases x with
  | factor own codes =>
    have same : own = levels := Option.some.inj spanned.levels?
    subst same
    have injective := List.nodup_iff_injective_get.mp spanned.distinct
    rw [level?_factor, level?_factor, (Option.map_injective injective).eq_iff]
    refine (Option.map_injective fun a b equal => ?_).eq_iff
    simpa [Fin.ext_iff] using equal
  | _ => cases spanned.levels?

/-- A zero is ordered as zero, whatever its sign. -/
theorem ofFloat?_zero {u : Float} (zero : (u == 0.0) = true) :
    Key.ofFloat? u = some (.number 0) := by
  obtain ⟨exponent, fraction⟩ := Number.fields_of_beq_zero zero
  have reading : Number.Reading.ofFloat u =
      .finite (2048 ≤ u.toBits.toNat / Number.hiddenBit) 0 (-1074) false := by
    simp [Number.Reading.ofFloat, exponent, fraction]
  rw [Key.ofFloat?, reading, Number.exact_of_beq_zero zero]

/-- Numbers that count as the same are ordered alike. -/
theorem ofFloat?_eq {u v : Float} (same : Number.Alike u v) : Key.ofFloat? u = Key.ofFloat? v := by
  rcases Number.Alike.eq_or_zero same with rfl | ⟨left, right⟩
  · rfl
  · rw [ofFloat?_zero left, ofFloat?_zero right]

/-- Which cells count as the same is told alike by columns that agree, if they are as a model takes
them. -/
theorem key?_eq_iff_key?_eq (agree : x.Agrees y) (left : x.IsTaken) (right : y.IsTaken)
    (i j : Fin rows) :
    x.key? i = x.key? j ↔ y.key? i = y.key? j := by
  rcases left with numeric | ⟨levels, spanned⟩
  · have same (row : Fin rows) : x.key? row = y.key? row := by
      cases agree with
      | float cells => exact ofFloat?_eq (cells row)
      | int | unsigned => rfl
      | _ => cases numeric
    rw [same, same]
  · have factor : x.isFactor = true := by rw [isFactor, spanned.levels?, Option.isSome_some]
    rcases right with numeric | ⟨levels', spanned'⟩
    · rw [← agree.isNumeric] at numeric
      have none := levels?_of_isNumeric numeric
      rw [spanned.levels?] at none
      cases none
    · rw [key?_eq_iff spanned, key?_eq_iff spanned', agree.level? factor, agree.level? factor]

end Agrees

end Column

namespace Frame

/-- Whether columns stand under the same names in the same order and agree. -/
def ColumnsAgree {rows : Nat} (columns columns' : List (String × Column rows)) : Prop :=
  Entries.Related Column.Agrees columns columns'

/-- Tables compare equal exactly if they have as many rows and columns that agree. -/
theorem same_iff {a b : Frame} :
    a.same b = true ↔ ∃ columns, b = ⟨a.rows, columns⟩ ∧ ColumnsAgree a.columns columns := by
  obtain ⟨rows, columns⟩ := a
  obtain ⟨rows', columns'⟩ := b
  rw [same]
  by_cases count : rows = rows'
  · subst count
    have each : ColumnsAgree columns columns' ↔
        Entries.Related (fun x y : Column rows => x.same y = true) columns columns' :=
      ⟨fun agree => agree.imp fun _ _ => Column.same_iff.mpr,
        fun agree => agree.imp fun _ _ => Column.same_iff.mp⟩
    rw [Entries.related_iff] at each
    simp [names, each]
  · rw [dif_neg count]
    refine ⟨fun wrong => absurd wrong Bool.false_ne_true, ?_⟩
    rintro ⟨_, equal, _⟩
    exact absurd (congrArg Frame.rows equal).symm count

/-- A table compares equal to itself. -/
theorem same_self (a : Frame) : a.same a = true :=
  same_iff.mpr ⟨a.columns, rfl, List.forall₂_same.mpr fun _ _ => ⟨rfl, .refl _⟩⟩

/-- Which of two tables is named first does not matter. -/
theorem same_symm {a b : Frame} (same : a.same b = true) : b.same a = true := by
  obtain ⟨columns, rfl, agree⟩ := same_iff.mp same
  exact same_iff.mpr ⟨a.columns, rfl, agree.symm fun _ _ each => each.symm⟩

variable {rows : Nat} {columns columns' : List (String × Column rows)}

/-- Under each name there are columns that agree, or none. -/
theorem ColumnsAgree.column (agree : ColumnsAgree columns columns') (name : String) :
    EndAlike Column.Agrees (Frame.column ⟨rows, columns⟩ name)
      (Frame.column ⟨rows, columns'⟩ name) := by
  have found := agree.lookup name
  unfold Frame.column Frame.column?
  dsimp only
  generalize columns.lookup name = x at found ⊢
  generalize columns'.lookup name = y at found ⊢
  cases found with
  | none => exact .error _
  | some same => exact .ok same

/-- In tables that a model takes, these are as a model takes them. -/
theorem ColumnsAgree.taken (agree : ColumnsAgree columns columns') (left : IsTaken ⟨rows, columns⟩)
    (right : IsTaken ⟨rows, columns'⟩) (name : String) :
    EndAlike (fun x y => x.Agrees y ∧ x.IsTaken ∧ y.IsTaken) (Frame.column ⟨rows, columns⟩ name)
      (Frame.column ⟨rows, columns'⟩ name) :=
  (agree.column name).reached.imp fun x y ⟨same, found, found'⟩ =>
    ⟨same, left name x (column_eq_ok.mp found), right name y (column_eq_ok.mp found')⟩

end Frame

namespace Autocorrelation

/-- How many residuals are passed on follows from what tells the rows of a series apart. -/
theorem lagsFrom_congr {ι α β : Type} [DecidableEq α] [DecidableEq β] {f : ι → α} {g : ι → β}
    (same : ∀ i j, f i = f j ↔ g i = g j) (limit position : Nat) (items : List ι) :
    lagsFrom limit position (items.map f) = lagsFrom limit position (items.map g) := by
  induction items generalizing position with
  | nil => rfl
  | cons i rest ih =>
    cases rest with
    | nil => rfl
    | cons j rest =>
      simp only [List.map_cons, lagsFrom] at ih ⊢
      by_cases equal : f i = f j
      · rw [if_pos equal, if_pos ((same i j).mp equal), ih]
      · rw [if_neg equal, if_neg fun other => equal ((same i j).mpr other), ih]

open Multilevel.Frame

variable {rows : Nat} {columns columns' : List (String × Column rows)} {a b : Autocorrelation}

/-- The series of rows in tables that compare equal tell the rows apart alike. -/
theorem series_endAlike (agree : ColumnsAgree columns columns') (left : IsTaken ⟨rows, columns⟩)
    (right : IsTaken ⟨rows, columns'⟩) (group : a.group = b.group) :
    EndAlike (fun keys keys' => ∀ limit position,
      lagsFrom limit position keys = lagsFrom limit position keys')
      (a.series ⟨rows, columns⟩) (b.series ⟨rows, columns'⟩) := by
  unfold series
  rw [← group]
  cases a.group with
  | none => exact .pure fun _ _ => rfl
  | some name =>
    refine (agree.taken left right name).bind fun x y ⟨same, first, second⟩ => ?_
    rw [first.hasCompound, second.hasCompound]
    exact .pure fun limit position =>
      lagsFrom_congr (same.key?_eq_iff_key?_eq first second) limit position _

/-- Tables that compare equal pass on the same numbers of residuals. -/
theorem lags_eq (agree : ColumnsAgree columns columns') (left : IsTaken ⟨rows, columns⟩)
    (right : IsTaken ⟨rows, columns'⟩) (order : a.order.toInt = b.order.toInt)
    (group : a.group = b.group) : a.lags ⟨rows, columns⟩ = b.lags ⟨rows, columns'⟩ := by
  refine EndAlike.eq ((series_endAlike agree left right group).bind fun keys keys' same => ?_)
  rw [← order]
  exact .pure (same _ _)

end Autocorrelation

end Multilevel
