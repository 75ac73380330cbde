import Multilevel.Proofs.Program.DataBlock
import Multilevel.Proofs.Program.Declared
import Multilevel.Proofs.Program.Sparse

/-!
# Packed designs

A design matrix may be passed without its zeros, as the entries that are left, their columns and the
places at which the rows start among them. These lists fit together, and unpacking them gives the
matrix (`BuildData.isPacked_sparse`). All other data are those that go with the whole matrix
(`BuildData.sparse_spec`).
-/
namespace Multilevel.BuildData

open Specification (IsNormal)

namespace SparseRows

/-- The entries of a row under their columns: those from its start to before the next one. -/
def slice (p : SparseRows) (i : Nat) : List (Nat × Float) :=
  ((p.columns.zip p.entries).drop (p.starts.getD i 1 - 1)).take
    (p.starts.getD (i + 1) 1 - p.starts.getD i 1)

/-- A row of the given width: in each column the entry under it, or zero. -/
def row (p : SparseRows) (width i : Nat) : List Float :=
  (List.range width).map fun k => ((p.slice i).lookup (k + 1)).getD 0.0

/-- The rows of the given width. -/
def unpack (p : SparseRows) (width : Nat) : List (List Float) :=
  (List.range (p.starts.length - 1)).map (p.row width)

/-- The data of the program that a packed matrix stands for. -/
def data (p : SparseRows) : BuildData :=
  [("NZ_X", .ofNat p.entries.length), ("wX", .reals p.entries),
    ("vX", .ints (p.columns.map Int.ofNat)), ("uX", .ints (p.starts.map Int.ofNat))]

end SparseRows

/-- A number, zeros without their sign. -/
def unsignedZero (x : Float) : Float := if x == 0.0 then 0.0 else x

/-- What holds of a packed matrix with rows of the given width. -/
structure IsPacked (rows : List (List Float)) (width : Nat) (p : SparseRows) : Prop where
  /-- Every entry has a column. -/
  columns : p.columns.length = p.entries.length
  /-- Every row has a start, and so has what comes after the last one. -/
  starts : p.starts.length = rows.length + 1
  /-- The first row starts at the first place. -/
  first : p.starts.head? = some 1
  /-- Starts do not decrease. -/
  ordered : p.starts.Pairwise (· ≤ ·)
  /-- The last one stands after all entries. -/
  last : p.starts.getLast? = some (p.entries.length + 1)
  /-- No entry is zero. -/
  nonzero : ∀ x ∈ p.entries, (x == 0.0) = false
  /-- The columns of a row increase. -/
  ascending : ∀ i < rows.length, ((p.slice i).map Prod.fst).Pairwise (· < ·)
  /-- They are columns of the matrix. -/
  within : ∀ i < rows.length, ∀ entry ∈ p.slice i, 1 ≤ entry.1 ∧ entry.1 ≤ width
  /-- The rows are what unpacking gives, but for the signs of zeros. -/
  unpacked : p.unpack width = rows.map fun row => row.map unsignedZero

/-- No start stands before the first one. -/
theorem le_of_mem_startsFrom {first start : Nat} {lengths : List Nat}
    (mem : start ∈ startsFrom first lengths) : first ≤ start := by
  induction lengths generalizing first with
  | nil => exact (List.mem_singleton.mp mem).ge
  | cons length rest ih =>
    rcases List.mem_cons.mp mem with rfl | later
    · exact Nat.le_refl _
    · exact (Nat.le_add_right _ _).trans (ih later)

/-- Starts do not decrease. -/
theorem pairwise_startsFrom (first : Nat) (lengths : List Nat) :
    (startsFrom first lengths).Pairwise (· ≤ ·) := by
  induction lengths generalizing first with
  | nil => exact List.pairwise_singleton _ _
  | cons length rest ih =>
    exact .cons (fun start mem => (Nat.le_add_right _ _).trans (le_of_mem_startsFrom mem)) (ih _)

variable {rows : List (List Float)} {width : Nat}

/-- The entries under their columns are those that are kept of all rows. -/
theorem zip_sparse (rows : List (List Float)) :
    (sparse rows).columns.zip (sparse rows).entries = (rows.map nonzero).flatten.map Prod.swap := by
  simp only [sparse, List.flatMap_def, ← List.map_flatten]
  exact List.zip_map'

/-- The entries of a row are those that are kept of it. -/
theorem slice_sparse {i : Nat} (inside : i < rows.length) :
    (sparse rows).slice i = (nonzero rows[i]).map Prod.swap := by
  have start {k : Nat} (within : k ≤ rows.length) : (sparse rows).starts.getD k 1 =
      ((rows.map nonzero).take k).flatten.length + 1 := by
    rw [List.getD_eq_getElem?_getD, getElem?_starts within, Option.getD_some]
  rw [SparseRows.slice, zip_sparse, start (Nat.le_of_lt inside), start (Nat.succ_le_of_lt inside),
    length_kept_succ inside, flatten_kept inside, List.map_append, List.map_append,
    List.append_assoc, List.drop_left' (by rw [List.length_map, Nat.add_sub_cancel]),
    List.take_left' (by rw [List.length_map]; omega)]

/-- The columns of kept entries increase. -/
theorem pairwise_nonzero (row : List Float) : (nonzero row).Pairwise fun x y => x.2 < y.2 := by
  have places : row.zipIdx.Pairwise fun x y => x.2 < y.2 := by
    rw [← List.pairwise_map, List.zipIdx_map_snd]
    exact List.pairwise_lt_range'
  refine places.filterMap _ fun x y before x' kept y' kept' => ?_
  dsimp only at kept kept'
  split at kept
  · cases kept
  · split at kept'
    · cases kept'
    · obtain rfl := Option.some.inj kept
      obtain rfl := Option.some.inj kept'
      exact Nat.succ_lt_succ before

/-- The kept entries of a row that stands from some column on. -/
theorem lookup_nonzero_from (row : List Float) (start k : Nat) :
    (((row.zipIdx start).filterMap fun (x, k) => if x == 0.0 then none else some (x, k + 1)).map
      Prod.swap).lookup (start + k + 1) = (row[k]?).filter fun x => !(x == 0.0) := by
  induction row generalizing start k with
  | nil => rfl
  | cons x rest ih =>
    -- What is kept of the others stands under later columns.
    have later : (((rest.zipIdx (start + 1)).filterMap fun (x, k) =>
        if x == 0.0 then none else some (x, k + 1)).map Prod.swap).lookup (start + 1) = none := by
      refine List.lookup_eq_none_iff.mpr fun entry mem => ?_
      obtain ⟨_, here, rfl⟩ := List.mem_map.mp mem
      obtain ⟨_, after, _⟩ := of_mem_kept here
      rw [bne_iff_ne, Prod.fst_swap]
      omega
    rw [List.zipIdx_cons, List.filterMap_cons]
    by_cases zero : (x == 0.0) = true
    · cases k with
      | zero => simpa [zero, Option.filter_some] using List.lookup_eq_none_iff.mp later
      | succ k =>
        have step := ih (start + 1) k
        rw [show start + 1 + k + 1 = start + (k + 1) + 1 by omega] at step
        simpa [zero] using step
    · cases k with
      | zero => simp [zero, Option.filter_some]
      | succ k =>
        have step := ih (start + 1) k
        rw [show start + 1 + k + 1 = start + (k + 1) + 1 by omega] at step
        have apart : (start + (k + 1) + 1 == start + 1) = false := by
          rw [beq_eq_false_iff_ne]
          omega
        simpa [zero, List.lookup_cons, apart] using step

/-- Under a column, what is kept of a row is its number unless that is zero. -/
theorem lookup_nonzero (row : List Float) (k : Nat) :
    ((nonzero row).map Prod.swap).lookup (k + 1) = (row[k]?).filter fun x => !(x == 0.0) := by
  rw [nonzero, ← lookup_nonzero_from row 0 k, Nat.zero_add]

/-- Unpacking a row gives its numbers back. -/
theorem row_sparse {i : Nat} (inside : i < rows.length) (even : rows[i].length = width) :
    (sparse rows).row width i = rows[i].map unsignedZero := by
  refine List.ext_getElem (by simp [SparseRows.row, even]) fun k here there => ?_
  rw [List.length_map] at there
  simp only [SparseRows.row, List.getElem_map, List.getElem_range, slice_sparse inside,
    lookup_nonzero, List.getElem?_eq_getElem there, unsignedZero]
  by_cases zero : (rows[i][k] == 0.0) = true
  · simp [zero, Option.filter_some]
  · simp [zero, Option.filter_some]

/-- Packing a matrix gives lists that fit together and hold the matrix. -/
theorem isPacked_sparse (even : ∀ row ∈ rows, row.length = width) :
    IsPacked rows width (sparse rows) where
  columns := length_sparse_columns rows
  starts := by simp [sparse, length_startsFrom]
  first := by
    rw [sparse]
    cases (rows.map nonzero).map List.length <;> rfl
  ordered := pairwise_startsFrom _ _
  last := by
    have count : (sparse rows).starts.length - 1 = rows.length := by
      simp [sparse, length_startsFrom]
    have all : ((rows.map nonzero).take rows.length).flatten.length =
        (sparse rows).entries.length := by
      rw [List.take_of_length_le (List.length_map nonzero).le]
      simp [sparse, List.length_flatMap]
    rw [List.getLast?_eq_getElem?, count, getElem?_starts (Nat.le_refl _), all]
  nonzero x mem := by
    obtain ⟨kept, listed, inside⟩ := List.mem_flatMap.mp mem
    obtain ⟨row, _, rfl⟩ := List.mem_map.mp listed
    obtain ⟨entry, here, rfl⟩ := List.mem_map.mp inside
    exact (of_mem_kept here).1
  ascending i inside := by
    rw [slice_sparse inside, List.map_map, List.pairwise_map]
    exact pairwise_nonzero _
  within i inside entry mem := by
    rw [slice_sparse inside] at mem
    obtain ⟨kept, here, rfl⟩ := List.mem_map.mp mem
    have bounds := place_le_of_mem_nonzero here
    rwa [even _ (List.getElem_mem inside)] at bounds
  unpacked := by
    have count : (sparse rows).starts.length - 1 = rows.length := by
      simp [sparse, length_startsFrom]
    refine List.ext_getElem (by simp [SparseRows.unpack, count]) fun i _ inside => ?_
    rw [List.length_map] at inside
    simp only [SparseRows.unpack, List.getElem_map, List.getElem_range]
    exact row_sparse inside (even _ (List.getElem_mem inside))

/-- The values of the user under their names. -/
def userData (s : Specification) : BuildData :=
  s.fragments.data.map fun (name, value) => (name, .loose value)

/-- Values of the user are added at the end, if no name comes twice. -/
theorem addLoose_eq_ok {loose : List (String × Value)} {data full : BuildData}
    (distinct : (data.map Prod.fst).Nodup) :
    addLoose loose data = .ok full ↔
      full = data ++ (loose.map fun (name, value) => (name, .loose value)) ∧
        (full.map Prod.fst).Nodup := by
  induction loose generalizing data with
  | nil =>
    rw [addLoose, List.map_nil, List.append_nil]
    constructor
    · intro done
      obtain rfl := Except.ok.inj done
      exact ⟨rfl, distinct⟩
    · rintro ⟨rfl, _⟩
      rfl
  | cons first rest ih =>
    obtain ⟨name, value⟩ := first
    have free : ¬(data.lookup name).isSome = true ↔ name ∉ data.map Prod.fst := by
      rw [← Entries.exists_lookup_iff, Option.isSome_iff_exists]
    rw [addLoose, ite_error_eq_ok, free, List.map_cons, ← List.singleton_append (l := List.map _ _),
      ← List.append_assoc]
    constructor
    · rintro ⟨new, done⟩
      refine (ih ?_).mp done
      rw [List.map_append, List.nodup_append]
      refine ⟨distinct, List.nodup_singleton _, fun key mem other last same => new ?_⟩
      rw [same, List.mem_singleton.mp last] at mem
      exact mem
    · rintro ⟨rfl, once⟩
      have grown : ((data ++ [(name, Datum.loose value)]).map Prod.fst).Nodup :=
        once.sublist ((List.sublist_append_left _ _).map _)
      refine ⟨fun taken => ?_, (ih grown).mpr ⟨rfl, once⟩⟩
      rw [List.map_append, List.nodup_append] at grown
      exact grown.2.2 name taken name (List.mem_singleton.mpr rfl) rfl

/-- Values under variables of their own stand before the others. -/
theorem ofValues_append {values more : List (Variable × Datum)}
    (distinct : (values.map Prod.fst).Nodup)
    (apart : ∀ v ∈ more.map Prod.fst, v ∉ values.map Prod.fst) :
    ofValues (values ++ more) =
      values.map (fun (v, datum) => (v.name, datum)) ++ ofValues more := by
  have names (list : List (Variable × Datum)) :
      (list.map fun (v, datum) => (v.name, datum)).map Prod.fst =
        (list.map Prod.fst).map Variable.name := by
    rw [List.map_map, List.map_map]
    rfl
  calc ofValues (values ++ more)
      = Entries.putAll (ofValues values) (more.map fun (v, datum) => (v.name, datum)) := by
        rw [ofValues, List.map_append, Entries.putAll, List.foldl_append]
        rfl
    _ = Entries.putAll (values.map (fun (v, datum) => (v.name, datum)) ++ [])
          (more.map fun (v, datum) => (v.name, datum)) := by
        rw [ofValues_eq_iff.mpr distinct, List.append_nil]
    _ = values.map (fun (v, datum) => (v.name, datum)) ++ ofValues more := by
        refine Entries.putAll_append [] fun name mem taken => ?_
        rw [names] at mem taken
        obtain ⟨v, here, rfl⟩ := List.mem_map.mp mem
        obtain ⟨other, there, same⟩ := List.mem_map.mp taken
        exact apart v here (Variable.name_injective same ▸ there)

variable {a : ModelArguments} {s : Specification}

/-- The variables up to the design of the shared coefficients. -/
def designVariables : List Variable :=
  [.observations, .response, .trials, .coefficients, .nonzeroCount, .nonzeros, .nonzeroColumns,
    .rowStarts, .design]

/-- The data of groups belong to groups. -/
theorem not_mem_groupData (normal : IsNormal a s) {lists : List (List (Variable × Datum))}
    (grouped : s.terms.groups.mapM (groupData s) = .ok lists) :
    ∀ v ∈ lists.flatten.map Prod.fst, v ∉ designVariables := by
  intro v mem listed
  obtain ⟨entry, inside, rfl⟩ := List.mem_map.mp mem
  obtain ⟨values, made, here⟩ := List.mem_flatten.mp inside
  obtain ⟨group, known, done⟩ := exists_of_mem_mapM grouped made
  obtain ⟨values', done', provided⟩ := groupData_spec [] normal known
  obtain rfl := Except.ok.inj (done.symm.trans done')
  have declared : entry.1 ∈ (Program.groupData group).flatMap Statement.declared :=
    provided.1 ▸ List.mem_map_of_mem here
  have owned : entry.1.owner = .group group.id := by
    refine (Variable.ofGroup_spec _ _).2 _ ((Program.groupStatements_sublist s group).subset ?_)
    simp only [Program.groupStatements, List.flatMap_append, List.mem_append, declared, true_or]
  have shared : ∀ v ∈ designVariables, v.owner = .model := by decide
  rw [shared _ listed] at owned
  cases owned

/-- The generated values stand in three parts: those up to the number of coefficients, the design
and the others. Only the design depends on whether it is packed. -/
theorem exists_generated (normal : IsNormal a s)
    (columns : List (DesignColumn Float s.data.rows)) :
    ∃ before after : List (Variable × Datum),
      ((before.map Prod.fst).Sublist [.observations, .response, .trials, .coefficients] ∧
        (.observations, .ofNat s.data.rows) ∈ before ∧
        (.coefficients, .ofNat columns.length) ∈ before) ∧
      (∀ v ∈ after.map Prod.fst, v ∉ designVariables) ∧
      ∀ packed values, designData { s with sparse := packed } =
          .ok ((.coefficients, .ofNat columns.length) :: values) →
        generated { s with sparse := packed } = .ok (before ++ values ++ after) := by
  obtain ⟨response, responded, first⟩ := responseData_spec columns normal
  obtain ⟨groups, grouped, _⟩ := exists_mapM_areProvided columns (groupData s)
    fun group mem => groupData_spec columns normal mem
  obtain ⟨lags, lagged, fourth⟩ := lagData_spec columns normal
  refine ⟨(.observations, .ofNat s.data.rows) :: response ++
    [(.coefficients, .ofNat columns.length)], groups.flatten ++ lags ++
    (s.knots.flatMap fun entry => knotData entry.1 entry.2) ++
    [(.priorOnly, .ofNat (if s.samplePrior = .only then 1 else 0))], ⟨?_, by simp, by simp⟩, ?_, ?_⟩
  · have names : (response.map Prod.fst).Sublist [.response, .trials] := by
      rw [first.1]
      unfold Program.responseData
      split <;> split <;> decide
    simpa using (names.append (List.Sublist.refl [Variable.coefficients])).cons_cons
      Variable.observations
  · have structured : ∀ v ∈ lags.map Prod.fst, v ∉ designVariables := by
      rw [fourth.1]
      unfold Program.lagData
      split <;> decide
    have knotted : ∀ v ∈ (s.knots.flatMap fun entry => knotData entry.1 entry.2).map Prod.fst,
        v ∉ designVariables := by
      intro v mem
      obtain ⟨entry, inside, rfl⟩ := List.mem_map.mp mem
      obtain ⟨⟨name, values⟩, _, here⟩ := List.mem_flatMap.mp inside
      simp only [knotData, List.mem_cons, List.not_mem_nil, or_false] at here
      rcases here with rfl | rfl <;> simp [designVariables]
    have flag : Variable.priorOnly ∉ designVariables := by decide
    simp only [List.map_append, List.forall_mem_append]
    exact ⟨⟨⟨not_mem_groupData normal grouped, structured⟩, knotted⟩, by simpa using flag⟩
  · intro packed values designed
    simp only [generated, bind_eq_ok, liftM_eq_mapError, mapError_eq_ok, pure_eq_ok]
    refine ⟨response, responded, _, designed, groups, grouped, lags, lagged, ?_⟩
    simp

/-- A design stands between the values before it and the others. -/
theorem ofValues_parts {before values after : List (Variable × Datum)}
    (first : (before.map Prod.fst).Sublist [.observations, .response, .trials, .coefficients])
    (own : (values.map Prod.fst).Sublist
      [.nonzeroCount, .nonzeros, .nonzeroColumns, .rowStarts, .design])
    (apart : ∀ v ∈ after.map Prod.fst, v ∉ designVariables) :
    ofValues (before ++ values ++ after) = before.map (fun (v, datum) => (v.name, datum)) ++
      values.map (fun (v, datum) => (v.name, datum)) ++ ofValues after := by
  have listed : ((before ++ values).map Prod.fst).Sublist designVariables := by
    rw [List.map_append]
    exact first.append own
  have distinct : designVariables.Nodup := by decide
  rw [ofValues_append (listed.nodup distinct) fun v mem inside =>
    apart v mem (listed.subset inside), List.map_append]

/-- The design of a specification, packed and as a whole. -/
theorem designData_forms {columns : List (DesignColumn Float s.data.rows)}
    (design : IsDesign s columns) (slopes : s.terms.population ≠ []) :
    designData { s with sparse := true } = .ok ((.coefficients, .ofNat columns.length) ::
        [(.nonzeroCount, .ofNat (sparse (rowsOf columns)).entries.length),
          (.nonzeros, .reals (sparse (rowsOf columns)).entries),
          (.nonzeroColumns, .ints ((sparse (rowsOf columns)).columns.map Int.ofNat)),
          (.rowStarts, .ints ((sparse (rowsOf columns)).starts.map Int.ofNat))]) ∧
      designData { s with sparse := false } = .ok ((.coefficients, .ofNat columns.length) ::
        [(.design, .matrix (rowsOf columns))]) := by
  have some : columns.isEmpty = false := by
    rw [design.2] at slopes
    simpa using slopes
  constructor
  · have packs : (true && !columns.isEmpty) = true := by rw [some]; rfl
    simp only [designData, design.1, bind_eq_ok, pure_eq_ok]
    exact ⟨columns, rfl, by rw [if_pos packs]⟩
  · simp only [designData, design.1, bind_eq_ok, pure_eq_ok]
    exact ⟨columns, rfl, rfl⟩

/-- What the data of a specification are with a packed design and with the whole matrix: the same
values before and after the design and the same values of the user. -/
structure SharesData (s : Specification) (packed : SparseRows) (rows : List (List Float))
    (before after : BuildData) : Prop where
  /-- The packed design is that of the matrix. -/
  isPacked : IsPacked rows s.terms.population.length packed
  /-- The matrix has a row per observation. -/
  height : rows.length = s.data.rows ∧ ("N", .ofNat rows.length) ∈ before
  /-- It has a column per coefficient. -/
  width : (∀ row ∈ rows, row.length = s.terms.population.length) ∧
    ("K", .ofNat s.terms.population.length) ∈ before
  /-- The data with the packed design; there are none if a name came twice. -/
  sparse : ∀ data, ofSpecification s = .ok data ↔
    data = before ++ packed.data ++ after ++ userData s ∧ (data.map Prod.fst).Nodup
  /-- The data with the matrix. -/
  whole : ∀ data, ofSpecification { s with sparse := false } = .ok data ↔
    data = before ++ [("X", .matrix rows)] ++ after ++ userData s ∧ (data.map Prod.fst).Nodup

/-- The data of generated values are those and the values of the user. -/
theorem ofSpecification_eq_ok {values : List (Variable × Datum)} (made : generated s = .ok values)
    (data : BuildData) : ofSpecification s = .ok data ↔
      data = ofValues values ++ userData s ∧ (data.map Prod.fst).Nodup := by
  have distinct : ((ofValues values).map Prod.fst).Nodup := by
    rw [ofValues, Entries.keys_putAll]
    exact nodup_eraseDups _
  rw [ofSpecification, made, userData, ← addLoose_eq_ok distinct]
  simp only [bind_eq_ok, liftM_eq_mapError, mapError_eq_ok, Except.ok.injEq, exists_eq_left']

/-- Where a design that is asked for in packed form has columns, the model is accepted without that
as well, packing keeps the matrix, and the data differ in nothing else. -/
theorem sparse_spec (accepted : (Specification.normalize a).outcome = .ok s)
    (asked : s.sparse = true) (slopes : s.terms.population ≠ []) :
    (Specification.normalize { a with sparse := false }).outcome =
        .ok { s with sparse := false } ∧
      ∃ packed rows before after, SharesData s packed rows before after := by
  have made := Specification.normalize_eq_ok_iff.mp accepted
  have normal := Specification.normalize_spec accepted
  refine ⟨Specification.normalize_eq_ok_iff.mpr { made with sparse := rfl }, ?_⟩
  obtain ⟨columns, design⟩ : ∃ columns, IsDesign s columns := normal.design
  obtain ⟨packs, whole⟩ := designData_forms design slopes
  obtain ⟨before, after, ⟨first, rows, count⟩, apart, given⟩ := exists_generated normal columns
  have self : { s with sparse := true } = s := by
    cases s
    cases asked
    rfl
  have size : columns.length = s.terms.population.length := by rw [design.2, List.length_map]
  have even : ∀ row ∈ rowsOf columns, row.length = s.terms.population.length := by
    intro row mem
    obtain ⟨_, _, rfl⟩ := List.mem_map.mp mem
    rw [List.length_map, size]
  have tall : (rowsOf columns).length = s.data.rows := by
    rw [rowsOf, List.length_map, List.length_finRange]
  refine ⟨sparse (rowsOf columns), rowsOf columns, before.map fun (v, datum) => (v.name, datum),
    ofValues after, isPacked_sparse even, ⟨tall, ?_⟩, ⟨even, ?_⟩, fun data => ?_, fun data => ?_⟩
  · rw [tall]
    exact List.mem_map.mpr ⟨_, rows, rfl⟩
  · rw [← size]
    exact List.mem_map.mpr ⟨_, count, rfl⟩
  · have values := given true _ packs
    rw [self] at values
    rw [ofSpecification_eq_ok values, ofValues_parts first ?_ apart]
    · rfl
    · simp only [List.map_cons, List.map_nil]
      decide
  · rw [ofSpecification_eq_ok (given false _ whole), ofValues_parts first ?_ apart]
    · rfl
    · simp only [List.map_cons, List.map_nil]
      decide

/-- A small model with a packed design, whose first row and second column have zeros. -/
def spare : ModelArguments where
  formula := "y ~ x + z"
  data := .table ⟨3, [("y", .int #[2, 3, 5].toVector), ("x", .int #[0, 1, 4].toVector),
    ("z", .int #[0, 2, 0].toVector)]⟩
  sparse := true

/-- Its data exist with the packed design and with the whole matrix, and differ in nothing else. -/
theorem spare_shares : ∃ s x y, (Specification.normalize spare).outcome = .ok s ∧
    s.sparse = true ∧ s.terms.population = ["x", "z"] ∧ ofSpecification s = .ok x ∧
    ofSpecification { s with sparse := false } = .ok y ∧ ∃ packed rows before after,
      SharesData s packed rows before after ∧ x = before ++ packed.data ++ after ∧
        y = before ++ [("X", .matrix rows)] ++ after := by
  obtain ⟨s, accepted, computed⟩ := exists_of_any (Specification.normalize spare).outcome
    (fun s => (s.sparse ∧ s.terms.population = ["x", "z"] ∧ s.fragments.data.isEmpty) ∧
      (ofSpecification s).isOk ∧ (ofSpecification { s with sparse := false }).isOk)
    (by decide +kernel)
  obtain ⟨⟨asked, names, none⟩, packs, whole⟩ := of_decide_eq_true computed
  obtain ⟨x, first⟩ := exists_of_isOk packs
  obtain ⟨y, second⟩ := exists_of_isOk whole
  obtain ⟨_, packed, rows, before, after, shares⟩ := sparse_spec accepted asked (by simp [names])
  have user : userData s = [] := by simpa [userData] using none
  refine ⟨s, x, y, accepted, asked, names, first, second, packed, rows, before, after, shares, ?_,
    ?_⟩
  · rw [((shares.sparse x).mp first).1, user, List.append_nil]
  · rw [((shares.whole y).mp second).1, user, List.append_nil]

end Multilevel.BuildData
