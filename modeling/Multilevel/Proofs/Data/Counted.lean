import Multilevel.Proofs.Model.RowOrder
import Multilevel.Proofs.Number.Nearest

/-!
# Counts in cleaned data

A family of counts, of truth values or of trials makes cleaning read the outcome as binary64 numbers,
check these, and store them in 64-bit words. So the words of a cleaned table are those of numbers that
passed the check (`Cleaning.exists_counted`). They are what the cells denote as far as binary64 numbers
and words hold it.
-/
namespace Multilevel

/-- Whether a column holds, in words, the numbers of the rows of another column that its own rows come
from. -/
structure Column.Stores {m n : Nat} (stored : Column n) (given : Column m) (origin : Fin n → Fin m)
    (numbers : Fin n → Float) : Prop where
  /-- The cells of the other column stand for the numbers. -/
  read : ∀ row, given.numberAt (origin row) = .ok (numbers row)
  /-- The cells hold the words of the numbers. -/
  words : ∃ cells : Vector Int n, stored = .int cells ∧
    ∀ row, cells.get row = Number.toInt64 (numbers row)

/-- Picked rows of a column that stores numbers store the numbers of the rows that they come from. -/
theorem Column.Stores.pick {m n : Nat} {stored : Column n} {given : Column m}
    {origin : Fin n → Fin m} {numbers : Fin n → Float}
    (stores : stored.Stores given origin numbers) (chosen : List (Fin n)) :
    (stored.pick chosen).Stores given (fun row => origin (chosen.get row))
      fun row => numbers (chosen.get row) where
  read row := stores.read (chosen.get row)
  words := by
    obtain ⟨cells, rfl, word⟩ := stores.words
    refine ⟨_, rfl, fun row => ?_⟩
    rw [← word, Vector.get_eq_getElem]
    simp [Vector.get_eq_getElem]

/-- A column that stores numbers lists their words. -/
theorem Column.Stores.exists_toList {m n : Nat} {stored : Column n} {given : Column m}
    {origin : Fin n → Fin m} {numbers : Fin n → Float} (stores : stored.Stores given origin numbers) :
    ∃ cells : Vector Int n, stored = .int cells ∧
      cells.toList = List.ofFn fun row => Number.toInt64 (numbers row) := by
  obtain ⟨cells, rfl, word⟩ := stores.words
  refine ⟨cells, rfl, List.ext_getElem (by simp) fun i inside _ => ?_⟩
  simpa [Vector.get_eq_getElem] using word ⟨i, by simpa using inside⟩

namespace Cleaning

open Number

/-- Whether a number of successes suits a number of trials, which may be infinite. -/
def IsTried (successes trials : Float) : Prop :=
  0 ≤ exact successes ∧ (Reading.ofFloat trials = .infinite false ∨
    isInteger trials = true ∧ 1 ≤ exact trials ∧ exact successes ≤ exact trials)

/-- Whether the outcome of a cleaned table holds the words of numbers that suit the family, given the
row of the caller's table that each of its rows comes from and the numbers of the response. -/
structure Counted (formula : Formula) (family : Family) (raw cleaned : Frame)
    (origin : Fin cleaned.rows → Fin raw.rows) (responses : Fin cleaned.rows → Float) : Prop where
  /-- The response holds the words of its numbers. -/
  response : ∃ given stored, raw.column? formula.response = some given ∧
    cleaned.column? formula.response = some stored ∧
    stored.Stores (readAs family.distribution.responseKind given) origin responses
  /-- These are integers. -/
  integers : ∀ row, isInteger (responses row) = true
  /-- No count is negative. -/
  count : family.distribution.responseKind = .count → ∀ row, 0 ≤ exact (responses row)
  /-- Truth values are zeros and ones. -/
  binary : family.distribution.responseKind = .binary → ∀ row,
    exact (responses row) = 0 ∨ exact (responses row) = 1
  /-- The number of trials holds the words of its numbers, which suit the response. -/
  trials : family.distribution.responseKind = .trials → ∃ name given stored counts,
    formula.trials = some name ∧ raw.column? name = some given ∧
    cleaned.column? name = some stored ∧ stored.Stores given origin counts ∧
    ∀ row, IsTried (responses row) (counts row)

/-- Picked rows of a table of counts are a table of counts. -/
theorem Counted.pick {formula : Formula} {family : Family} {raw cleaned : Frame}
    {origin : Fin cleaned.rows → Fin raw.rows} {responses : Fin cleaned.rows → Float}
    (counted : Counted formula family raw cleaned origin responses)
    (chosen : List (Fin cleaned.rows)) :
    Counted formula family raw (cleaned.pick chosen) (fun row => origin (chosen.get row))
      fun row => responses (chosen.get row) where
  response := by
    obtain ⟨given, stored, here, there, stores⟩ := counted.response
    exact ⟨given, _, here, (Frame.column?_pick ..).trans (congrArg _ there), stores.pick chosen⟩
  integers row := counted.integers (chosen.get row)
  count kind row := counted.count kind (chosen.get row)
  binary kind row := counted.binary kind (chosen.get row)
  trials kind := by
    obtain ⟨name, given, stored, counts, tried, here, there, stores, suited⟩ := counted.trials kind
    exact ⟨name, given, _, _, tried, here, (Frame.column?_pick ..).trans (congrArg _ there),
      stores.pick chosen, fun row => suited (chosen.get row)⟩

variable {rows : Nat} {formula : Formula} {family : Family}

/-- Numbers are the words that are stored of them. -/
theorem stores_asWords {column : Column rows} {values : Vector Float rows}
    (numbers : column.numbers = .ok values) : (asWords values).Stores column id values.get where
  read := Column.numbers_eq_ok_iff.mp numbers
  words := ⟨_, rfl, fun row => by simp [Vector.get_eq_getElem]⟩

/-- The elements of a vector are those of its rows. -/
theorem mem_toList_get {α : Type} (v : Vector α rows) (row : Fin rows) : v.get row ∈ v.toList := by
  rw [Vector.mem_toList_iff, Vector.get_eq_getElem]
  exact Vector.getElem_mem _

/-- Zero and one as binary64 numbers. -/
theorem exact_zero_one : isFinite 0.0 = true ∧ exact 0.0 = 0 ∧ isFinite 1.0 = true ∧ exact 1.0 = 1 := by
  decide +kernel

/-- No integer is less than zero as a binary64 number unless its value is negative. -/
theorem exact_nonneg {x : Float} (finite : isFinite x = true) : ¬x < 0.0 ↔ 0 ≤ exact x := by
  obtain ⟨zero, value, _⟩ := exact_zero_one
  rw [lt_iff finite zero, value, not_lt]

/-- Numbers of trials that pass the check suit the numbers of successes. -/
theorem checkTrials_eq_ok {name familyName : String} {successes trials : Vector Float rows}
    (integers : ∀ row, isInteger (successes.get row) = true)
    (passed : checkTrials name familyName successes trials = .ok ()) (row : Fin rows) :
    IsTried (successes.get row) (trials.get row) := by
  obtain ⟨_, _, one, value⟩ := exact_zero_one
  have pair : (successes.get row, trials.get row) ∈ successes.toList.zip trials.toList := by
    refine List.mem_iff_getElem.mpr ⟨row, by simp, ?_⟩
    simp [Vector.get_eq_getElem]
  unfold checkTrials at passed
  simp only [throw_bind, ite_throw_eq_ok, pure_eq_ok, Bool.not_eq_true', Bool.not_eq_false,
    Bool.not_eq_true, List.all_eq_true, List.any_eq_false, Bool.and_eq_true, Bool.or_eq_true,
    decide_eq_true_eq, decide_eq_false_iff_not, not_or] at passed
  obtain ⟨counts, suited, _⟩ := passed
  obtain ⟨nonneg, within⟩ := suited _ pair
  obtain ⟨finite, _⟩ := isInteger_iff.mp (integers row)
  refine ⟨(exact_nonneg finite).mp nonneg, ?_⟩
  obtain ⟨whole | infinite, least⟩ := counts _ (mem_toList_get trials row)
  · obtain ⟨there, _⟩ := isInteger_iff.mp whole
    rw [lt_iff there one, value, not_lt] at least
    rw [lt_iff there finite, not_lt] at within
    exact .inr ⟨whole, least, within⟩
  · exact .inl (beq_infinity_iff.mp infinite)

/-- Numbers of trials that are the stored response itself are numbers of trials of the response. -/
theorem isTried_restored {x : Float} (whole : isInteger x = true)
    (tried : IsTried x (ofInt (toInt64 x))) : IsTried x x := by
  obtain ⟨finite, n, same⟩ := isInteger_iff.mp whole
  obtain ⟨short, word⟩ := isShort_toInt64 (.inl whole)
  obtain ⟨there, value, _⟩ := restored short word
  obtain ⟨nonneg, infinite | ⟨_, least, _⟩⟩ := tried
  · rw [isFinite, infinite] at there
    cases there
  · refine ⟨nonneg, .inr ⟨whole, ?_, le_rfl⟩⟩
    rw [value, toInt64_of_exact finite same] at least
    split at least
    · rwa [same]
    · exact absurd least (by decide)

/-- A column that was replaced by words holds them. -/
theorem lookup_asWords {columns : List (String × Column rows)} {name : String}
    {column : Column rows} (found : columns.lookup name = some column) (values : Vector Float rows) :
    (Entries.adjust columns name fun _ => asWords values).lookup name = some (asWords values) := by
  rw [Entries.lookup_adjust, found]
  simp

/-- The number of trials is stored as the response is, whose words it may be itself. -/
theorem exists_stores_trials {columns : List (String × Column rows)} {response name : String}
    {given column : Column rows} {values counts : Vector Float rows}
    (found : columns.lookup response = some given) (numbers : given.numbers = .ok values)
    (integers : ∀ row, isInteger (values.get row) = true)
    (counted : (Entries.adjust columns response fun _ => asWords values).lookup name = some column)
    (spelled : column.numbers = .ok counts)
    (suited : ∀ row, IsTried (values.get row) (counts.get row)) :
    ∃ stored other stored' tries,
      (Entries.adjust (Entries.adjust columns response fun _ => asWords values) name
        fun _ => asWords counts).lookup response = some stored ∧
      stored.Stores given id values.get ∧ columns.lookup name = some other ∧
      (Entries.adjust (Entries.adjust columns response fun _ => asWords values) name
        fun _ => asWords counts).lookup name = some stored' ∧
      stored'.Stores other id tries ∧ ∀ row, IsTried (values.get row) (tries row) := by
  have first := lookup_asWords found values
  have second := lookup_asWords counted counts
  by_cases same : name = response
  · subst same
    obtain rfl := Option.some.inj (first.symm.trans counted)
    obtain rfl : (values.map toInt64).map ofInt = counts := Except.ok.inj spelled
    have stores : (asWords ((values.map toInt64).map ofInt)).Stores given id values.get := by
      refine ⟨Column.numbers_eq_ok_iff.mp numbers, _, rfl, fun row => ?_⟩
      obtain ⟨short, word⟩ := isShort_toInt64 (.inl (integers row))
      simpa [Vector.get_eq_getElem] using (restored short word).2.2
    refine ⟨_, given, _, values.get, second, stores, found, second, stores, fun row => ?_⟩
    exact isTried_restored (integers row) (by simpa [Vector.get_eq_getElem] using suited row)
  · rcases lookup_adjust_asWords counted with ⟨equal, _⟩ | ⟨_, other⟩
    · exact absurd equal same
    · refine ⟨asWords values, column, asWords counts, counts.get, ?_, stores_asWords numbers, other,
        second, stores_asWords spelled, suited⟩
      rw [Entries.lookup_adjust, first]
      simp [Ne.symm same]

/-- A checked response holds the words of its numbers, and so does the number of trials. -/
theorem exists_counted {columns : List (String × Column rows)} {checked : Frame}
    (passed : checkResponse ⟨rows, columns⟩ formula family = .ok checked)
    (discrete : family.distribution.responseKind ≠ .real) :
    ∃ (made : List (String × Column rows)) (responses : Fin rows → Float),
      checked = ⟨rows, made⟩ ∧ Counted formula family ⟨rows, columns⟩ ⟨rows, made⟩ id responses := by
  obtain ⟨_, values, found, _, numbers, made, rfl, own⟩ := exists_passed passed
  have here := lookup_readColumns_response.symm.trans found
  obtain ⟨given, there, rfl⟩ := Option.map_eq_some_iff.mp here
  have stored := lookup_asWords found values
  have stores := stores_asWords numbers
  have whole (integers : values.toList.all isInteger = true) (row : Fin rows) :
      isInteger (values.get row) = true :=
    List.all_eq_true.mp integers _ (mem_toList_get values row)
  cases own with
  | real kind => exact absurd kind discrete
  | count kind integers nonneg =>
    refine ⟨_, values.get, rfl, ⟨given, _, there, stored, stores⟩, whole integers, fun _ row => ?_,
      by simp [kind], by simp [kind]⟩
    have least := List.any_eq_false.mp nonneg _ (mem_toList_get values row)
    exact (exact_nonneg (isInteger_iff.mp (whole integers row)).1).mp (by simpa using least)
  | binary kind integers truths =>
    refine ⟨_, values.get, rfl, ⟨given, _, there, stored, stores⟩, whole integers, by simp [kind],
      fun _ row => ?_, by simp [kind]⟩
    have finite := (isInteger_iff.mp (whole integers row)).1
    obtain ⟨zero, zeroValue, one, oneValue⟩ := exact_zero_one
    have truth := List.all_eq_true.mp truths _ (mem_toList_get values row)
    rwa [Bool.or_eq_true, beq_iff finite zero, beq_iff finite one, zeroValue, oneValue] at truth
  | trials kind integers tried counted spelled suited =>
    have plain : family.distribution.responseKind ≠ .binary := by simp [kind]
    simp only [readColumns_of_ne plain, readAs_of_ne plain] at found numbers counted
    obtain ⟨stored, other, stored', tries, response, holds, source, made, holds', suit⟩ :=
      exists_stores_trials found numbers (whole integers) counted spelled
        (checkTrials_eq_ok (whole integers) suited)
    rw [readColumns_of_ne plain]
    exact ⟨_, values.get, rfl, ⟨given, stored, there, response, (readAs_of_ne plain given).symm ▸ holds⟩,
      whole integers, by simp [kind], by simp [kind],
      fun _ => ⟨_, other, stored', tries, tried, source, made, holds', suit⟩⟩

/-- A checked response of complete rows, taken as the model takes them, holds the words of the numbers
of these rows. -/
theorem Counted.of_converted {raw : Frame} {columns : List (String × Column raw.rows)}
    {chosen : List (Fin raw.rows)} {converted stored : List (String × Column chosen.length)}
    {grouping : List String} {responses : Fin chosen.length → Float}
    (given : ∀ name column, columns.lookup name = some column → raw.column? name = some column)
    (converts : convertColumns formula grouping (Frame.pick ⟨raw.rows, columns⟩ chosen).columns =
      .ok converted)
    (counted : Counted formula family ⟨chosen.length, converted⟩ ⟨chosen.length, stored⟩ id
      responses) :
    Counted formula family raw ⟨chosen.length, stored⟩ chosen.get responses := by
  -- The outcome is taken as it is, so its cells are those of the rows that were chosen.
  have source {name : String} {column : Column chosen.length} (outcome : IsOutcome formula name)
      (found : converted.lookup name = some column) :
      ∃ first, raw.column? name = some first ∧ column = first.pick chosen := by
    obtain ⟨picked, here, taken⟩ :=
      Entries.lookup_of_forall₂ (Taken formula _) (convertColumns_eq_ok converts) found
    obtain ⟨first, there, rfl⟩ := Frame.of_column?_pick ⟨raw.rows, columns⟩ here
    cases taken with
    | outcome => exact ⟨first, given name first there, rfl⟩
    | factor other | number other => exact absurd outcome other
  refine ⟨?_, counted.integers, counted.count, counted.binary, fun kind => ?_⟩
  · obtain ⟨column, response, found, here, stores⟩ := counted.response
    obtain ⟨first, there, rfl⟩ := source (.inl rfl) found
    refine ⟨first, response, there, here, fun row => ?_, stores.words⟩
    rw [← stores.read row, readAs_pick, Column.numberAt_pick]
    rfl
  · obtain ⟨name, column, trials, counts, tried, found, here, stores, suited⟩ := counted.trials kind
    obtain ⟨first, there, rfl⟩ := source (.inr tried.symm) found
    refine ⟨name, first, trials, counts, tried, there, here, ⟨fun row => ?_, stores.words⟩, suited⟩
    rw [← stores.read row, Column.numberAt_pick]
    rfl

end Cleaning

namespace Column

open Number

variable {rows : Nat}

/-- Whether a column holds integers of words, truth values or binary64 numbers. -/
def IsMeasured : Column rows → Prop
  | int cells => ∀ row, isWord (cells.get row) = true
  | bool _ | float _ => True
  | _ => False

/-- Whether the cell of a row denotes an integer: its own, one for true and zero for false, or the value
of a binary64 number. -/
def Denotes (column : Column rows) (row : Fin rows) (n : Int) : Prop :=
  match column with
  | int cells => cells.get row = n
  | bool cells => (if cells.get row then 1 else 0) = n
  | float cells => isFinite (cells.get row) = true ∧ exact (cells.get row) = n
  | _ => False

/-- A cell denotes one integer at most. -/
theorem Denotes.unique {column : Column rows} {row : Fin rows} {m n : Int}
    (first : column.Denotes row m) (second : column.Denotes row n) : m = n := by
  cases column with
  | int | bool => exact first.symm.trans second
  | float => exact_mod_cast first.2.symm.trans second.2
  | _ => cases first

/-- Truth values that are read as integers denote what they denoted. -/
theorem denotes_readAs {kind : ResponseKind} {column : Column rows} {row : Fin rows} {n : Int} :
    (Cleaning.readAs kind column).Denotes row n ↔ column.Denotes row n := by
  unfold Cleaning.readAs
  split
  · cases column <;> simp [Cleaning.truthsAsIntegers, Denotes, Vector.get_eq_getElem]
  · rfl

/-- Truth values that are read as integers fit words. -/
theorem IsMeasured.readAs {column : Column rows} (measured : column.IsMeasured)
    (kind : ResponseKind) : (Cleaning.readAs kind column).IsMeasured := by
  unfold Cleaning.readAs
  split
  · cases column with
    | bool cells =>
      intro row
      rw [Vector.get_eq_getElem, Vector.getElem_map]
      split <;> decide
    | _ => exact measured
  · exact measured

/-- An integral number that a cell stands for is the nearest one to the integer that the cell denotes. -/
theorem exists_denoted {column : Column rows} (measured : column.IsMeasured) {row : Fin rows}
    {x : Float} (read : column.numberAt row = .ok x) (whole : isInteger x = true) :
    ∃ n, column.Denotes row n ∧ exact x = nearest n := by
  obtain ⟨finite, n, same⟩ := isInteger_iff.mp whole
  cases column with
  | int cells =>
    obtain rfl := Except.ok.inj read
    exact ⟨_, rfl, (ofInt_of_isWord (measured row)).2⟩
  | bool cells =>
    obtain rfl := Except.ok.inj read
    refine ⟨_, rfl, ?_⟩
    obtain ⟨_, zero, _, one⟩ := Cleaning.exact_zero_one
    cases cells.get row
    · exact zero
    · exact one
  | float cells =>
    obtain rfl := Except.ok.inj read
    refine ⟨n, ⟨finite, same⟩, ?_⟩
    rw [same, nearest_eq_self_iff.mpr (isShort_of_exact finite same)]
  | _ => cases measured

/-- The numbers that a column stores in words are those nearest to the integers that its cells denote. -/
theorem Stores.exists_denoted {m n : Nat} {stored : Column n} {given : Column m}
    {origin : Fin n → Fin m} {numbers : Fin n → Float} (stores : stored.Stores given origin numbers)
    (measured : given.IsMeasured) (row : Fin n) (whole : isInteger (numbers row) = true) :
    ∃ k, given.Denotes (origin row) k ∧ exact (numbers row) = nearest k ∧
      toInt64 (numbers row) = storedWord k := by
  obtain ⟨k, denotes, same⟩ := Column.exists_denoted measured (stores.read row) whole
  obtain ⟨finite, _⟩ := isInteger_iff.mp whole
  exact ⟨k, denotes, same, toInt64_eq finite same⟩

/-- Whether a number of trials is what the cell of a row denotes: an integer, or none if it is
infinite. -/
def Grants (column : Column rows) (row : Fin rows) : Option Int → Prop
  | some n => column.Denotes row n
  | none => ∃ x, column.numberAt row = .ok x ∧ Reading.ofFloat x = .infinite false

/-- A small integer that a cell denotes is the number that the cell stands for. -/
theorem Denotes.exact {column : Column rows} {row : Fin rows} {n : Int}
    (denotes : column.Denotes row n) (small : n.natAbs < 2 ^ 53) {x : Float}
    (read : column.numberAt row = .ok x) : isFinite x = true ∧ Number.exact x = n := by
  cases column with
  | int cells =>
    obtain rfl := Except.ok.inj read
    have word : isWord n = true := isWord_iff.mpr (by rw [halfWords]; omega)
    obtain ⟨finite, value, _⟩ := restored ⟨n.natAbs, 0, by simp, small⟩ word
    obtain rfl : cells.get row = n := denotes
    exact ⟨finite, value⟩
  | bool cells =>
    obtain rfl := Except.ok.inj read
    obtain ⟨finite, zero, finite', one⟩ := Cleaning.exact_zero_one
    obtain rfl : (if cells.get row then 1 else 0) = n := denotes
    cases cells.get row
    · exact ⟨finite, zero⟩
    · exact ⟨finite', one⟩
  | float cells =>
    obtain rfl := Except.ok.inj read
    exact denotes
  | _ => cases denotes

/-- Small integers that cells denote are stored as they are. -/
theorem Stores.get_eq {m n : Nat} {cells : Vector Int n} {given : Column m} {origin : Fin n → Fin m}
    {numbers : Fin n → Float} (stores : (int cells).Stores given origin numbers) {row : Fin n}
    {k : Int} (denotes : given.Denotes (origin row) k) (small : k.natAbs < 2 ^ 53) :
    cells.get row = k := by
  obtain ⟨own, same, word⟩ := stores.words
  obtain rfl := Column.int.inj same
  obtain ⟨finite, value⟩ := denotes.exact small (stores.read row)
  have fits : isWord k = true := isWord_iff.mpr (by rw [halfWords]; omega)
  rw [word, toInt64_of_exact finite value, if_pos fits]

end Column

end Multilevel
