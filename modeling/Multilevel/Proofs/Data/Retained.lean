import Multilevel.Proofs.Data.Counted

/-!
# What cleaning retains

Cleaning keeps the complete rows, each once, and puts them in the order of the series and of time, those
that tie in the order that they had. A column that is turned into a factor has the levels of the cells
that are kept, in the order of a factor that it was before or of their characters; all others keep their
cells, but for an outcome that is stored in words (`Cleaning.Steps.retains`).
-/
namespace Multilevel

namespace Column

variable {m n rows : Nat}

/-- Rows that come from themselves have their own cells. -/
theorem along_id (column : Column rows) : column.along id = column := by
  have own {α : Type} (cells : Vector α rows) : (.ofFn fun row => cells.get (id row)) = cells := by
    ext i bound
    simp [Vector.get_eq_getElem]
  cases column <;> simp only [along, own]

/-- Whether a column is the factor of the cells of another column that its rows come from: its cells
have their levels, and its levels are exactly those, in the order of the other column's levels if that
is a factor and in the order of their characters if not. -/
structure IsFactorOf (column : Column n) (given : Column m) (origin : Fin n → Fin m) : Prop where
  /-- The cells have the levels of the given cells. -/
  cells : ∀ row, column.level? row = given.level? (origin row)
  /-- The levels are distinct, they occur, and they are ordered. -/
  levels : ∃ levels, column.levels? = some levels ∧ levels.Nodup ∧
    (∀ text, text ∈ levels ↔ ∃ row, given.level? (origin row) = some text) ∧
    (∀ categories, given.levels? = some categories → levels.Sublist categories) ∧
    (given.levels? = none → levels.Pairwise (· ≤ ·))

/-- A column with given levels is the factor of its cells if the levels are those of the cells. -/
theorem isFactorOf_withLevels {column : Column rows} {levels : List String}
    (distinct : levels.Nodup)
    (exact : ∀ text, text ∈ levels ↔ ∃ row, column.level? row = some text)
    (known : ∀ categories, column.levels? = some categories → levels.Sublist categories)
    (sorted : column.levels? = none → levels.Pairwise (· ≤ ·)) :
    (column.withLevels levels).IsFactorOf column id where
  cells := column.level?_withLevels fun row text here => (exact text).mpr ⟨row, here⟩
  levels := ⟨levels, rfl, distinct, exact, known, sorted⟩

/-- A column that is turned into a factor becomes the factor of its cells. -/
theorem isFactorOf_of_asFactor {column made : Column rows} (converted : column.asFactor = .ok made) :
    made.IsFactorOf column id := by
  cases given : column.levels? with
  | none =>
    obtain rfl := asFactor_eq_sortedLevels given converted
    exact isFactorOf_withLevels (nodup_sortedLevels column) (fun text => mem_sortedLevels)
      (by simp [given]) fun _ => pairwise_sortedLevels column
  | some categories =>
    obtain ⟨codes, rfl⟩ := exists_factor given
    rw [asFactor] at converted
    split at converted
    · rename_i full
      obtain rfl := Except.ok.inj converted
      refine isFactorOf_withLevels (length_eraseDups_eq_iff.mp full)
        (fun text => mem_presentLevels_factor) (fun others same => ?_) (by simp [given])
      obtain rfl := Option.some.inj (given.symm.trans same)
      exact List.filter_sublist
    · cases converted

/-- The factor of picked cells is a factor of the cells that were picked. -/
theorem IsFactorOf.of_pick {column : Column n} {given : Column rows} {chosen : List (Fin rows)}
    {origin : Fin n → Fin chosen.length} (made : column.IsFactorOf (given.pick chosen) origin) :
    column.IsFactorOf given fun row => chosen.get (origin row) where
  cells row := (made.cells row).trans (given.level?_pick chosen _)
  levels := by
    obtain ⟨levels, factor, distinct, exact, ordered⟩ := made.levels
    refine ⟨levels, factor, distinct, fun text => ?_, given.levels?_pick chosen ▸ ordered⟩
    simp only [exact, level?_pick]
    rfl

/-- The factor of cells, all its rows picked in some order, is the factor of the cells in that order. -/
theorem IsFactorOf.pick {column : Column n} {given : Column m} {origin : Fin n → Fin m}
    (made : column.IsFactorOf given origin) {order : List (Fin n)} (all : ∀ row, row ∈ order) :
    (column.pick order).IsFactorOf given fun row => origin (order.get row) where
  cells row := (column.level?_pick order row).trans (made.cells _)
  levels := by
    obtain ⟨levels, factor, distinct, exact, ordered⟩ := made.levels
    refine ⟨levels, (column.levels?_pick order).trans factor, distinct, fun text => ?_, ordered⟩
    rw [exact]
    exact (exists_pick_iff all fun row => given.level? (origin row) = some text).symm

/-- In a list without repetitions an element is found where it stands. -/
theorem finIdxOf?_get {levels : List String} (distinct : levels.Nodup) (code : Fin levels.length) :
    levels.finIdxOf? (levels.get code) = some code := by
  refine List.finIdxOf?_eq_some_iff.mpr ⟨rfl, fun other before same => ?_⟩
  exact absurd (distinct.getElem_inj_iff.mp same) (Nat.ne_of_lt before)

/-- A factor whose cells have exactly its levels is the factor that is made of it. -/
theorem IsSpanned.asFactor {column : Column rows} {levels : List String}
    (spanned : column.IsSpanned levels) : column.asFactor = .ok column := by
  obtain ⟨codes, rfl⟩ := exists_factor spanned.levels?
  have kept : (factor levels codes).presentLevels levels = levels := by
    refine List.filter_eq_self.mpr fun text listed => ?_
    simpa using spanned.occurs text listed
  have own : (factor levels codes).withLevels levels = factor levels codes := by
    refine congrArg (factor levels) (Vector.ext fun i bound => ?_)
    rw [Vector.getElem_ofFn, level?_factor]
    show _ = codes.get ⟨i, bound⟩
    cases codes.get ⟨i, bound⟩ with
    | none => rfl
    | some code => exact finIdxOf?_get spanned.distinct code
  rw [Column.asFactor, kept, own, if_pos (length_eraseDups_eq_iff.mpr spanned.distinct)]

end Column

namespace Frame

variable {frame : Frame}

/-- In a list without repetitions no two rows come in both orders. -/
theorem not_sublist_swap {rows : Nat} {listed : List (Fin rows)} (distinct : listed.Nodup)
    {a b : Fin rows} (first : [a, b].Sublist listed) (second : [b, a].Sublist listed) : False := by
  have placed : listed.Pairwise fun x y => listed.idxOf x < listed.idxOf y := by
    refine List.pairwise_iff_getElem.mpr fun i j before after less => ?_
    rwa [distinct.idxOf_getElem, distinct.idxOf_getElem]
  have forth := List.pairwise_iff_forall_sublist.mp placed first
  have back := List.pairwise_iff_forall_sublist.mp placed second
  exact Nat.lt_asymm forth back

/-- Rows come in their own order in the list of all rows. -/
theorem pair_sublist_finRange {rows : Nat} {a b : Fin rows} (less : a < b) :
    [a, b].Sublist (List.finRange rows) := by
  have places : [a.cast (List.length_finRange).symm, b.cast (List.length_finRange).symm].Pairwise
      (· < ·) := by simpa using less
  simpa using List.map_getElem_sublist places

/-- Rows that are ordered by some columns stand in the order of their keys, and those whose keys tie in
their own order. -/
theorem pairwise_stable (frame : Frame) (columns : List (Column frame.rows)) :
    (frame.orderedRows columns).Pairwise fun a b =>
      Key.leList (keysOf columns a) (keysOf columns b) = true ∧
        (keysOf columns a = keysOf columns b → a < b) := by
  have distinct : (frame.orderedRows columns).Nodup :=
    (frame.orderedRows_perm columns).nodup_iff.mpr (List.nodup_finRange _)
  have ordered := frame.pairwise_orderedRows columns
  refine List.pairwise_iff_forall_sublist.mpr fun {a b} here => ?_
  refine ⟨List.pairwise_iff_forall_sublist.mp ordered here, fun tie => ?_⟩
  have differ : a ≠ b := List.pairwise_iff_forall_sublist.mp distinct here
  by_contra behind
  have swapped : [b, a].Sublist (frame.orderedRows columns) := by
    refine List.pair_sublist_mergeSort (leList_keysOf_trans columns) (leList_keysOf_total columns) ?_
      (pair_sublist_finRange (by omega))
    have itself := leList_keysOf_total columns a a
    rw [Bool.or_self] at itself
    show Key.leList (keysOf columns b) (keysOf columns a) = true
    rwa [← tie]
  exact not_sublist_swap distinct here swapped

/-- Whether the rows of a table stand in the order of some of its columns, those that tie in the order
of the rows that they come from. -/
def IsStablyOrderedBy (frame : Frame) (names : List String) {m : Nat}
    (origin : Fin frame.rows → Fin m) : Prop :=
  ∃ columns : List (Column frame.rows),
    List.Forall₂ (fun name column => frame.column? name = some column) names columns ∧
      ∀ i j, i < j → Key.leList (keysOf columns i) (keysOf columns j) = true ∧
        (keysOf columns i = keysOf columns j → origin i < origin j)

/-- Rows in such an order stand in the order of the columns. -/
theorem IsStablyOrderedBy.isOrderedBy {names : List String} {m : Nat} {origin : Fin frame.rows → Fin m}
    (ordered : frame.IsStablyOrderedBy names origin) : frame.IsOrderedBy names := by
  obtain ⟨columns, found, stable⟩ := ordered
  exact ⟨columns, found, fun i j before => (stable i j before).1⟩

/-- Rows that stand in the order of some columns are ordered by them. -/
theorem orderedRows_of_ordered {columns : List (Column frame.rows)}
    (ordered : ∀ i j, i < j → Key.leList (keysOf columns i) (keysOf columns j) = true) :
    frame.orderedRows columns = List.finRange frame.rows :=
  List.mergeSort_of_pairwise ((List.pairwise_lt_finRange _).imp fun less => ordered _ _ less)

/-- A table whose rows all are picked in their order is the table. -/
theorem pick_finRange (frame : Frame) : frame.pick (List.finRange frame.rows) = frame := by
  have same {count : Nat} (origin : Fin count → Fin frame.rows) (size : count = frame.rows)
      (each : ∀ row, origin row = row.cast size) : frame.along origin = frame := by
    subst size
    obtain rfl : origin = id := funext each
    simp only [along, Column.along_id, List.map_id']
  rw [pick_eq_along]
  exact same _ List.length_finRange fun row => by simp

/-- Rows that are ordered by no columns stay as they are. -/
theorem pick_orderedRows_nil (frame : Frame) : frame.pick (frame.orderedRows []) = frame := by
  rw [orderedRows_of_ordered fun _ _ _ => rfl, pick_finRange]

end Frame

namespace Cleaning

open Number

/-- Whether cleaning stores a column in words. -/
def IsStored (formula : Formula) (family : Family) (name : String) : Prop :=
  family.distribution.responseKind ≠ .real ∧ name = formula.response ∨
    family.distribution.responseKind = .trials ∧ some name = formula.trials

/-- A family that has columns stored is discrete. -/
theorem IsStored.discrete {formula : Formula} {family : Family} {name : String}
    (own : IsStored formula family name) : family.distribution.responseKind ≠ .real := by
  rcases own with ⟨discrete, _⟩ | ⟨kind, _⟩
  · exact discrete
  · simp [kind]

/-- A column that is stored holds the words of its numbers, which are integers or infinite. -/
theorem Counted.exists_stores {formula : Formula} {family : Family} {raw cleaned : Frame}
    {origin : Fin cleaned.rows → Fin raw.rows} {responses : Fin cleaned.rows → Float}
    (counted : Counted formula family raw cleaned origin responses) {name : String}
    (own : IsStored formula family name) : ∃ given stored numbers, raw.column? name = some given ∧
      cleaned.column? name = some stored ∧
      stored.Stores (readAs family.distribution.responseKind given) origin numbers ∧
      ∀ row, isInteger (numbers row) = true ∨ isFinite (numbers row) = false := by
  rcases own with ⟨_, rfl⟩ | ⟨kind, trials⟩
  · obtain ⟨given, stored, here, there, stores⟩ := counted.response
    exact ⟨given, stored, responses, here, there, stores, fun row => .inl (counted.integers row)⟩
  · obtain ⟨_, given, stored, counts, tried, here, there, stores, suited⟩ := counted.trials kind
    obtain rfl := Option.some.inj (trials.trans tried)
    have plain := readAs_of_ne (by simp [kind] : family.distribution.responseKind ≠ .binary) given
    refine ⟨given, stored, counts, here, there, plain.symm ▸ stores, fun row => ?_⟩
    rcases (suited row).2 with infinite | ⟨whole, _⟩
    · exact .inr (by rw [isFinite, infinite])
    · exact .inl whole

/-- What cleaning retains of a column in the rows that are kept. -/
inductive Retained (formula : Formula) (family : Family) (grouping : List String) (name : String)
    {m n : Nat} (given : Column m) (origin : Fin n → Fin m) : Column n → Prop where
  /-- Numbers that do not group observations keep their cells, and so does an outcome that is not
  stored. -/
  | unchanged (unstored : ¬IsStored formula family name)
    (plain : IsOutcome formula name ∨ name ∉ grouping ∧ given.isNumeric = true) :
    Retained formula family grouping name given origin (given.along origin)
  /-- Other columns become the factors of their cells. -/
  | factor (other : ¬IsOutcome formula name) (grouped : name ∈ grouping ∨ given.isNumeric = false)
    {column : Column n} (made : column.IsFactorOf given origin) :
    Retained formula family grouping name given origin column
  /-- An outcome that is stored holds the words of its numbers, which are what the cells denote if that
  is small. -/
  | stored (own : IsStored formula family name) {cells : Vector Int n} {numbers : Fin n → Float}
    (stores : (Column.int cells).Stores (readAs family.distribution.responseKind given) origin numbers)
    (small : ∀ row k, given.Denotes (origin row) k → k.natAbs < 2 ^ 53 → cells.get row = k) :
    Retained formula family grouping name given origin (.int cells)

/-- The check of the response leaves columns that it does not store. -/
theorem lookup_of_not_isStored {rows : Nat} {columns made : List (String × Column rows)}
    {formula : Formula} {family : Family}
    (passed : checkResponse ⟨rows, columns⟩ formula family = .ok ⟨rows, made⟩) {name : String}
    (unstored : ¬IsStored formula family name) : made.lookup name = columns.lookup name := by
  obtain ⟨_, values, _, _, _, read, same, own⟩ := exists_passed passed
  obtain rfl : made = read := by simpa using same
  -- A stored response changes the columns under its own name alone.
  have kept (differs : name ≠ formula.response) :
      (Entries.adjust (readColumns formula family columns) formula.response fun _ =>
        asWords values).lookup name = columns.lookup name := by
    rw [Entries.lookup_adjust, lookup_readColumns_of_ne differs]
    simp [differs]
  cases own with
  | real kind => rw [readColumns_of_ne (by simp [kind])]
  | count kind | binary kind => exact kept fun equal => unstored (.inl ⟨by simp [kind], equal⟩)
  | trials kind _ tried =>
    have untried : name ≠ _ := fun equal => unstored (.inr ⟨kind, equal ▸ tried.symm⟩)
    rw [Entries.lookup_adjust, kept fun equal => unstored (.inl ⟨by simp [kind], equal⟩)]
    simp [untried]

/-- Numbers that do not group observations are not converted. -/
theorem convertColumns_numeric {rows : Nat} {formula : Formula} {grouping : List String}
    {columns made : List (String × Column rows)}
    (converted : convertColumns formula grouping columns = .ok made) :
    List.Forall₂ (fun given result => result.1 = given.1 ∧
      (given.1 ∉ grouping → given.2.isNumeric = true → result.2 = given.2)) columns made := by
  refine (convertColumns_cases converted).imp fun given result ⟨named, step⟩ => ⟨named, ?_⟩
  intro free numeric
  rcases step with ⟨_, same⟩ | ⟨_, grouped | categorical, _⟩ | ⟨_, _, same⟩
  · exact same
  · exact absurd grouped free
  · cases numeric.symm.trans categorical
  · exact same

/-- The columns that cleaned rows are ordered by. -/
def sortKeys (autocorrelation : Option Autocorrelation) : List String :=
  autocorrelation.elim [] Autocorrelation.keys

/-- The steps of cleaning a table: the columns are selected, the complete rows are chosen, the columns
are converted, the outcome is stored, and the rows are put in order. -/
structure Steps (formula : Formula) (family : Family) (autocorrelation : Option Autocorrelation)
    (raw : Frame) where
  /-- The needed columns. -/
  needed : List (String × Column raw.rows)
  /-- The complete rows. -/
  chosen : List (Fin raw.rows)
  /-- The columns as the model takes them. -/
  converted : List (String × Column chosen.length)
  /-- The columns with the outcome as the family stores it. -/
  stored : List (String × Column chosen.length)
  /-- The columns that order the rows. -/
  keys : List (Column chosen.length)
  selected : raw.select (neededColumns formula autocorrelation) = .ok ⟨raw.rows, needed⟩
  complete : chosen = Frame.completeRows ⟨raw.rows, needed⟩
  nonempty : chosen.length ≠ 0
  converts : convertColumns formula (groupingColumns formula autocorrelation)
    (Frame.pick ⟨raw.rows, needed⟩ chosen).columns = .ok converted
  passed : checkResponse ⟨chosen.length, converted⟩ formula family = .ok ⟨chosen.length, stored⟩
  keyed : List.Forall₂ (fun name column => Frame.column? ⟨chosen.length, stored⟩ name = some column)
    (sortKeys autocorrelation) keys

namespace Steps

variable {formula : Formula} {family : Family} {autocorrelation : Option Autocorrelation}
  {raw : Frame} (steps : Steps formula family autocorrelation raw)

/-- The chosen rows in their order. -/
def order : List (Fin steps.chosen.length) :=
  Frame.orderedRows ⟨steps.chosen.length, steps.stored⟩ steps.keys

/-- The cleaned table. -/
def result : Frame := Frame.pick ⟨steps.chosen.length, steps.stored⟩ steps.order

/-- The row of the given table that each cleaned row comes from. -/
def origin (row : Fin steps.result.rows) : Fin raw.rows := steps.chosen.get (steps.order.get row)

/-- Every chosen row comes once. -/
theorem order_perm : steps.order.Perm (List.finRange steps.chosen.length) :=
  Frame.orderedRows_perm _ _

/-- The needed columns are found in the given table. -/
theorem needed_spec : steps.needed.map Prod.fst = neededColumns formula autocorrelation ∧
    ∀ name column, steps.needed.lookup name = some column → raw.column? name = some column :=
  Frame.of_select steps.selected

/-- The result is a clean table. -/
theorem clean : Cleaned formula family autocorrelation raw steps.result steps.origin := by
  obtain ⟨names, given⟩ := steps.needed_spec
  obtain ⟨columns, same, suited⟩ := checkResponse_eq_ok steps.passed
  obtain rfl : steps.stored = columns := by simpa using same
  exact (Cleaned.of_checked names given steps.complete steps.nonempty steps.converts suited).pick
    steps.order_perm

/-- The outcome of a discrete family holds the words of numbers. -/
theorem counted (discrete : family.distribution.responseKind ≠ .real) :
    ∃ responses, Counted formula family raw steps.result steps.origin responses := by
  obtain ⟨columns, responses, same, counted⟩ := exists_counted steps.passed discrete
  obtain rfl : steps.stored = columns := by simpa using same
  exact ⟨_, (counted.of_converted steps.needed_spec.2 steps.converts).pick steps.order⟩

/-- The rows come from the complete ones, all of them. -/
theorem exists_origin_iff {row : Fin raw.rows} : (∃ i, steps.origin i = row) ↔
    raw.isCompleteIn (neededColumns formula autocorrelation) row = true := by
  have listed : row ∈ steps.chosen ↔
      raw.isCompleteIn (neededColumns formula autocorrelation) row = true := by
    rw [steps.complete, Frame.completeRows, List.mem_filter, and_iff_right (List.mem_finRange row),
      Frame.isComplete_of_select steps.selected]
  rw [← listed]
  constructor
  · rintro ⟨i, rfl⟩
    exact List.get_mem _ _
  · intro mem
    obtain ⟨place, rfl⟩ := List.mem_iff_get.mp mem
    obtain ⟨i, rfl⟩ := List.mem_iff_get.mp (mem_of_perm steps.order_perm place)
    exact ⟨i, rfl⟩

/-- The rows stand in the order of the keys, and those that tie in the given order. -/
theorem stably_ordered : steps.result.IsStablyOrderedBy (sortKeys autocorrelation) steps.origin := by
  refine ⟨_, Frame.found_pick steps.keyed steps.order, fun i j before => ?_⟩
  have stable := List.pairwise_iff_getElem.mp
    (Frame.pairwise_stable ⟨steps.chosen.length, steps.stored⟩ steps.keys) i j i.isLt j.isLt before
  have increasing : steps.chosen.Pairwise (· < ·) := by
    rw [steps.complete]
    exact (List.pairwise_lt_finRange _).filter _
  have first := Frame.keysOf_pick steps.keys steps.order i
  have second := Frame.keysOf_pick steps.keys steps.order j
  refine ⟨first.symm ▸ second.symm ▸ stable.1, fun tie => ?_⟩
  exact List.pairwise_iff_getElem.mp increasing _ _ _ _
    (stable.2 (first.symm.trans (tie.trans second)))

/-- Each column retains what it had in the rows that are kept. -/
theorem retained {name : String} {column : Column steps.result.rows}
    (found : steps.result.column? name = some column) : ∃ given, raw.column? name = some given ∧
      Retained formula family (groupingColumns formula autocorrelation) name given steps.origin
        column := by
  by_cases own : IsStored formula family name
  · obtain ⟨responses, counted⟩ := steps.counted own.discrete
    obtain ⟨given, stored, numbers, here, there, stores, _⟩ := counted.exists_stores own
    obtain rfl := Option.some.inj (there.symm.trans found)
    obtain ⟨cells, rfl, _⟩ := stores.words
    exact ⟨given, here, .stored own stores fun row k denotes small =>
      stores.get_eq (Column.denotes_readAs.mpr denotes) small⟩
  · obtain ⟨made, stored, rfl⟩ :=
      Frame.of_column?_pick ⟨steps.chosen.length, steps.stored⟩ found
    have converted := (lookup_of_not_isStored steps.passed own).symm.trans stored
    obtain ⟨picked, here, taken⟩ :=
      Entries.lookup_of_forall₂ (Taken formula _) (convertColumns_eq_ok steps.converts) converted
    obtain ⟨again, there, numbers⟩ := Entries.lookup_of_forall₂
      (fun name given result => name ∉ groupingColumns formula autocorrelation →
        given.isNumeric = true → result = given)
      (convertColumns_numeric steps.converts) converted
    obtain rfl := Option.some.inj (here.symm.trans there)
    obtain ⟨first, source, rfl⟩ := Frame.of_column?_pick ⟨raw.rows, steps.needed⟩ here
    refine ⟨first, steps.needed_spec.2 name first source, ?_⟩
    have moved : (first.pick steps.chosen).pick steps.order = first.along steps.origin := by
      rw [Column.pick_eq_along, Column.pick_eq_along, Column.along_along]
      rfl
    have numeric := first.isNumeric_pick steps.chosen
    by_cases plain : IsOutcome formula name ∨
        name ∉ groupingColumns formula autocorrelation ∧ first.isNumeric = true
    · obtain rfl : made = first.pick steps.chosen := by
        rcases plain with outcome | ⟨free, plain⟩
        · cases taken with
          | outcome => rfl
          | factor other | number other => exact absurd outcome other
        · exact numbers free (numeric.trans plain)
      rw [moved]
      exact .unchanged own plain
    · rw [not_or, not_and_or, not_not, Bool.not_eq_true] at plain
      cases taken with
      | outcome outcome => exact absurd outcome plain.1
      | number _ free own =>
        exact absurd own (by simp [numeric, plain.2.resolve_left free])
      | factor _ made =>
        exact .factor plain.1 plain.2
          ((Column.isFactorOf_of_asFactor made).of_pick.pick (mem_of_perm steps.order_perm))

end Steps

/-- Rows are put in the order of the keys of a structure; without any they stay as they are. -/
theorem orderRows_eq_ok {frame ordered : Frame} {a : Autocorrelation}
    (done : a.orderRows frame = .ok ordered) : ∃ keys : List (Column frame.rows),
      List.Forall₂ (fun name column => frame.column? name = some column) a.keys keys ∧
        ordered = frame.pick (frame.orderedRows keys) := by
  unfold Autocorrelation.orderRows at done
  split at done
  · rename_i none
    obtain rfl := Except.ok.inj done
    rw [List.isEmpty_iff.mp none]
    exact ⟨[], .nil, (frame.pick_orderedRows_nil).symm⟩
  · exact Frame.sortBy_orderedRows done

/-- Cleaning takes its steps. -/
theorem exists_steps {raw cleaned : Frame} {formula : Formula} {family : Family}
    {autocorrelation : Option Autocorrelation} {knots : List String}
    (done : (update raw formula family autocorrelation knots).outcome = .ok cleaned) :
    ∃ steps : Steps formula family autocorrelation raw, cleaned = steps.result := by
  obtain ⟨columns, chosen, converted, _, selected, complete, nonempty, converts, passed, ordered⟩ :=
    update_eq_ok done
  obtain ⟨stored, rfl, _⟩ := checkResponse_eq_ok passed
  have sorted : ∃ keys, List.Forall₂ (fun name column =>
        Frame.column? ⟨chosen.length, stored⟩ name = some column) (sortKeys autocorrelation) keys ∧
      cleaned = Frame.pick ⟨_, stored⟩ (Frame.orderedRows ⟨_, stored⟩ keys) := by
    cases autocorrelation with
    | none =>
      obtain rfl := Except.ok.inj ordered
      exact ⟨[], .nil, (Frame.pick_orderedRows_nil _).symm⟩
    | some a => exact orderRows_eq_ok ordered
  obtain ⟨keys, keyed, rfl⟩ := sorted
  exact ⟨⟨columns, chosen, converted, stored, keys, selected, complete, nonempty, converts, passed,
    keyed⟩, rfl⟩

/-- What cleaning retains of a table, given the row that each cleaned row comes from. -/
structure Retains (formula : Formula) (family : Family) (autocorrelation : Option Autocorrelation)
    (raw cleaned : Frame) (origin : Fin cleaned.rows → Fin raw.rows) : Prop where
  /-- The rows are the complete ones. -/
  complete : ∀ row, (∃ i, origin i = row) ↔
    raw.isCompleteIn (neededColumns formula autocorrelation) row = true
  /-- They stand in the order of the series and of time, and those that tie in their own order. -/
  ordered : cleaned.IsStablyOrderedBy (sortKeys autocorrelation) origin
  /-- Each column has what it had in these rows. -/
  columns : ∀ name column, cleaned.column? name = some column → ∃ given,
    raw.column? name = some given ∧
      Retained formula family (groupingColumns formula autocorrelation) name given origin column

/-- The steps of cleaning retain the complete rows. -/
theorem Steps.retains {formula : Formula} {family : Family}
    {autocorrelation : Option Autocorrelation} {raw : Frame}
    (steps : Steps formula family autocorrelation raw) :
    Retains formula family autocorrelation raw steps.result steps.origin where
  complete _ := steps.exists_origin_iff
  ordered := steps.stably_ordered
  columns _ _ found := steps.retained found

/-- The table that a model of counts sees is clean and holds the words of numbers of its rows. -/
theorem update_counted {raw cleaned : Frame} {formula : Formula} {family : Family}
    {autocorrelation : Option Autocorrelation} {knots : List String}
    (done : (update raw formula family autocorrelation knots).outcome = .ok cleaned)
    (discrete : family.distribution.responseKind ≠ .real) :
    ∃ origin responses, Cleaned formula family autocorrelation raw cleaned origin ∧
      Counted formula family raw cleaned origin responses := by
  obtain ⟨steps, rfl⟩ := exists_steps done
  obtain ⟨responses, counted⟩ := steps.counted discrete
  exact ⟨_, responses, steps.clean, counted⟩

end Cleaning

end Multilevel
