import Mathlib
import Multilevel.Proofs.Draws.Stack
import Multilevel.Proofs.Entries
import Multilevel.Proofs.Outcome

/-!
# Merging chains

Results of chains can be merged exactly if their numbers are those issued, each once, and all of
them have the same variables with the same dimensions. The merged draws hold the chains in the
order of their numbers, whatever the order of the results, and each of them can be taken out again
as it was (`ChainResults.merge_spec`).
-/
namespace Multilevel

variable {α : Type}

namespace Dataset

/-- Whether a dataset has each variable once, with a value for each of its places. -/
structure IsProper (d : Dataset α) : Prop where
  /-- No two variables have one name. -/
  distinct : d.names.Nodup
  /-- Every variable has as many values as places. -/
  full : ∀ entry ∈ d.arrays, entry.2.IsFull

instance (d : Dataset α) : Decidable d.IsProper :=
  decidable_of_iff (d.names.Nodup ∧ ∀ entry ∈ d.arrays, entry.2.IsFull)
    ⟨fun both => ⟨both.1, both.2⟩, fun proper => ⟨proper.distinct, proper.full⟩⟩

/-- Whether two datasets have the same labels and the same variables, in whatever order. -/
structure Alike (a b : Dataset α) : Prop where
  /-- The variables are the same. -/
  arrays : a.arrays.Perm b.arrays
  /-- The labels are the same. -/
  labels : a.labels = b.labels

/-- The variables of a schema are those of its dataset. -/
theorem keys_schema (d : Dataset α) : d.schema.map Prod.fst = d.names := by
  simp [schema, names, Function.comp_def]

/-- Two schemas are found to be the same exactly if they list the same variables with the same
dimensions, in whatever order. -/
theorem sameSchema_iff {a b : Dataset α} (left : a.names.Nodup) (right : b.names.Nodup) :
    a.sameSchema b = true ↔ a.schema.Perm b.schema := by
  rw [← keys_schema] at left right
  simp only [sameSchema, Bool.and_eq_true, beq_iff_eq, List.all_eq_true]
  constructor
  · rintro ⟨count, each⟩
    have inside : a.schema ⊆ b.schema := fun entry mem => Entries.mem_of_lookup (each entry mem)
    exact (left.of_map.subperm inside).perm_of_length_le count.ge
  · intro perm
    exact ⟨perm.length_eq, fun entry mem => Entries.lookup_of_mem right (perm.subset mem)⟩

/-- The array of a variable, an empty one if there is no such variable. -/
def array (d : Dataset α) (name : String) : DrawArray α :=
  (d.arrays.lookup name).getD ⟨[], #[]⟩

/-- A dataset with its variables in the order of some names. -/
def inOrder (d : Dataset α) (names : List String) : Dataset α :=
  { d with arrays := names.map fun name => (name, d.array name) }

/-- A proper dataset has its own variables. -/
theorem IsProper.lookup_array {d : Dataset α} (proper : d.IsProper)
    {entry : String × DrawArray α} (mem : entry ∈ d.arrays) :
    d.arrays.lookup entry.1 = some entry.2 ∧ d.array entry.1 = entry.2 := by
  have found := Entries.lookup_of_mem proper.distinct mem
  exact ⟨found, by rw [array, found, Option.getD_some]⟩

/-- A proper dataset in its own order is as it was. -/
theorem IsProper.inOrder_names {d : Dataset α} (proper : d.IsProper) : d.inOrder d.names = d := by
  have own : d.names.map (fun name => (name, d.array name)) = d.arrays := by
    rw [names, List.map_map]
    refine (List.map_congr_left fun entry mem => ?_).trans (List.map_id _)
    rw [Function.comp_apply, (proper.lookup_array mem).2, id_eq]
  rw [inOrder, own]

/-- A proper dataset is like itself in another order. -/
theorem IsProper.alike_inOrder {d : Dataset α} (proper : d.IsProper) {names : List String}
    (perm : names.Perm d.names) : (d.inOrder names).Alike d where
  arrays := by
    have own : (d.inOrder d.names).arrays = d.arrays := by rw [proper.inOrder_names]
    exact (perm.map fun name => (name, d.array name)).trans (.of_eq own)
  labels := rfl

end Dataset

/-- Whether two results are of one chain and hold the same variables, in whatever order. -/
structure ChainResult.Alike (a b : ChainResult α) : Prop where
  /-- The chain is the same. -/
  chain : a.chain = b.chain
  /-- The draws are the same. -/
  draws : a.draws.Alike b.draws
  /-- What the sampler says is the same. -/
  stats : a.stats.Alike b.stats

namespace ChainResults

section Numbers

/-- The numbers from one up to a given one. -/
def numbersTo (issued : Int) : List Int := (List.range issued.toNat).map fun k => Int.ofNat k + 1

/-- A number is issued exactly if it lies between one and the last one. -/
theorem mem_numbersTo {issued i : Int} : i ∈ numbersTo issued ↔ 1 ≤ i ∧ i ≤ issued := by
  simp only [numbersTo, List.mem_map, List.mem_range, Int.ofNat_eq_natCast]
  constructor
  · rintro ⟨k, below, rfl⟩
    omega
  · rintro ⟨low, high⟩
    exact ⟨(i - 1).toNat, by omega, by omega⟩

/-- Issued numbers stand in ascending order. -/
theorem sorted_numbersTo (issued : Int) : (numbersTo issued).Pairwise (· < ·) := by
  rw [numbersTo, List.pairwise_map]
  exact List.pairwise_lt_range.imp fun below => by simpa using below

/-- No number is issued twice. -/
theorem nodup_numbersTo (issued : Int) : (numbersTo issued).Nodup :=
  (sorted_numbersTo issued).imp fun below => Int.ne_of_lt below

variable {numbers others : List Int} {issued : Int}

/-- Sorting does not depend on the order of the numbers. -/
theorem mergeSort_eq_of_perm (perm : numbers.Perm others) :
    numbers.mergeSort = others.mergeSort := by
  have sorted (given : List Int) : given.mergeSort.Pairwise (· ≤ ·) := by
    have pairwise := @List.pairwise_mergeSort Int (fun a b => decide (a ≤ b))
      (by simpa using fun a b c => Int.le_trans) (by simpa using Int.le_total) given
    simpa using pairwise
  exact List.Perm.eq_of_pairwise (fun _ _ _ _ => Int.le_antisymm) (sorted _) (sorted _)
    ((List.mergeSort_perm numbers _).trans (perm.trans (List.mergeSort_perm others _).symm))

/-- Nothing is sorted exactly if there is nothing. -/
theorem mergeSort_eq_nil_iff : numbers.mergeSort = [] ↔ numbers = [] := by
  rw [← List.length_eq_zero_iff, List.length_mergeSort, List.length_eq_zero_iff]

/-- No number is reported as duplicated exactly if there is no repetition. -/
theorem duplicated_eq_nil_iff : duplicated numbers = [] ↔ numbers.Nodup := by
  rw [duplicated, mergeSort_eq_nil_iff, List.nodup_iff_count_le_one]
  have same : (numbers.filter fun i => 1 < numbers.count i).eraseDups = [] ↔
      (numbers.filter fun i => 1 < numbers.count i) = [] := by
    cases numbers.filter fun i => 1 < numbers.count i <;> simp [List.eraseDups_cons]
  rw [same, List.filter_eq_nil_iff]
  constructor
  · intro single i
    by_cases mem : i ∈ numbers
    · simpa using single i mem
    · simp [List.count_eq_zero_of_not_mem mem]
  · intro single i _
    simpa using single i

/-- No number is reported as outside exactly if all numbers are issued. -/
theorem outside_eq_nil_iff : outside numbers issued = [] ↔ ∀ i ∈ numbers, i ∈ numbersTo issued := by
  rw [outside, mergeSort_eq_nil_iff, List.filter_eq_nil_iff]
  refine forall₂_congr fun i _ => ?_
  rw [mem_numbersTo]
  simp only [Bool.or_eq_true, decide_eq_true_eq]
  omega

/-- No number is reported as missing exactly if all issued numbers occur. -/
theorem missing_eq_nil_iff : missing numbers issued = [] ↔ ∀ i ∈ numbersTo issued, i ∈ numbers := by
  rw [missing, ← numbersTo, List.filter_eq_nil_iff]
  simp

/-- The reported numbers do not depend on the order. -/
theorem duplicated_eq_of_perm (perm : numbers.Perm others) :
    duplicated numbers = duplicated others := by
  have counts : (fun i => decide (1 < numbers.count i)) = fun i => decide (1 < others.count i) :=
    funext fun i => by rw [perm.count_eq]
  have kept := counts ▸ perm.filter fun i => decide (1 < numbers.count i)
  refine mergeSort_eq_of_perm ?_
  rw [List.perm_ext_iff_of_nodup (nodup_eraseDups _) (nodup_eraseDups _)]
  intro i
  rw [List.mem_eraseDups, List.mem_eraseDups, counts, kept.mem_iff]

/-- The numbers are accepted exactly if they are those issued, each once. -/
theorem checkNumbers_eq_ok_iff :
    checkNumbers numbers issued = .ok () ↔ numbers.Perm (numbersTo issued) := by
  have accepted : checkNumbers numbers issued = .ok () ↔
      numbers.Nodup ∧ (∀ i ∈ numbers, i ∈ numbersTo issued) ∧
        ∀ i ∈ numbersTo issued, i ∈ numbers := by
    rw [← duplicated_eq_nil_iff, ← outside_eq_nil_iff, ← missing_eq_nil_iff, checkNumbers]
    simp only [throw_bind, ite_throw_eq_ok, Bool.not_eq_true', Bool.not_eq_false,
      List.isEmpty_iff, pure_eq_ok, and_true]
  rw [accepted]
  constructor
  · rintro ⟨distinct, inside, complete⟩
    exact (List.perm_ext_iff_of_nodup distinct (nodup_numbersTo issued)).mpr
      fun i => ⟨inside i, complete i⟩
  · intro perm
    exact ⟨perm.nodup_iff.mpr (nodup_numbersTo issued), fun i mem => perm.subset mem,
      fun i mem => perm.symm.subset mem⟩

/-- A number among distinct ones is found at its place. -/
theorem idxOf?_getElem (distinct : numbers.Nodup) {k : Nat} (inside : k < numbers.length) :
    numbers.idxOf? numbers[k] = some k := by
  refine List.idxOf?_eq_some_iff.mpr ⟨inside, rfl, fun j before same => ?_⟩
  exact Nat.ne_of_lt before (distinct.getElem_inj_iff.mp same)

/-- What is wrong with numbers does not depend on their order. -/
theorem checkNumbers_eq_of_perm (perm : numbers.Perm others) :
    checkNumbers numbers issued = checkNumbers others issued := by
  have outside : outside numbers issued = outside others issued :=
    mergeSort_eq_of_perm (perm.filter _)
  have missing : missing numbers issued = missing others issued :=
    List.filter_congr fun i _ => by simp [perm.mem_iff]
  rw [checkNumbers, checkNumbers, duplicated_eq_of_perm perm, outside, missing]

end Numbers

section Order

variable {results others : ChainResults α}

/-- Ordering keeps all results. -/
theorem perm_ordered (results : ChainResults α) : (ordered results).Perm results :=
  List.mergeSort_perm results _

/-- Results are ordered by their numbers. -/
theorem sorted_ordered (results : ChainResults α) :
    (ordered results).Pairwise fun a b => a.chain ≤ b.chain := by
  have pairwise := @List.pairwise_mergeSort (ChainResult α)
    (fun a b => decide (a.chain ≤ b.chain))
    (by simpa using fun _ _ _ => Int.le_trans)
    (by simpa using fun a b : ChainResult α => Int.le_total a.chain b.chain) results
  simpa [ordered] using pairwise

/-- Results of distinct chains have one order. -/
theorem ordered_eq_of_perm (distinct : (results.map ChainResult.chain).Nodup)
    (perm : results.Perm others) : ordered results = ordered others := by
  have same : (ordered results).Perm (ordered others) :=
    (perm_ordered results).trans (perm.trans (perm_ordered others).symm)
  refine List.Perm.eq_of_pairwise (fun a b left right low high => ?_) (sorted_ordered _)
    (sorted_ordered _) same
  exact List.inj_on_of_nodup_map distinct ((perm_ordered results).subset left)
    (perm.symm.subset ((perm_ordered others).subset right)) (Int.le_antisymm low high)

/-- The results of all issued chains are ordered from the first to the last. -/
theorem chains_ordered {issued : Int}
    (accepted : (results.map ChainResult.chain).Perm (numbersTo issued)) :
    (ordered results).map ChainResult.chain = numbersTo issued := by
  refine List.Perm.eq_of_pairwise (fun _ _ _ _ => Int.le_antisymm)
    (List.pairwise_map.mpr (sorted_ordered results))
    ((sorted_numbersTo issued).imp fun below => Int.le_of_lt below) ?_
  exact ((perm_ordered results).map _).trans accepted

end Order

section Stack

variable {reference : Dataset α} {parts : List (Dataset α)}

/-- A dataset that was stacked is found at its position, its variables in the order of those of the
first one. -/
theorem chainPart_stack (proper : ∀ part ∈ parts, part.IsProper)
    (same : ∀ part ∈ parts, part.schema.Perm reference.schema)
    (labels : ∀ part ∈ parts, part.labels = reference.labels) {k : Nat}
    (inside : k < parts.length) :
    Posterior.chainPart (stack reference parts) k = .ok (parts[k].inOrder reference.names) := by
  have picked : ∀ entry ∈ reference.arrays, (DrawArray.stack chainDim entry.2.dims
      (parts.filterMap fun part => part.arrays.lookup entry.1)).pick chainDim k =
        .ok (parts[k].array entry.1) := by
    intro entry mem
    have has : ∀ part ∈ parts, part.arrays.lookup entry.1 = some (part.array entry.1) ∧
        (part.array entry.1).dims = entry.2.dims ∧ (part.array entry.1).IsFull := by
      intro part there
      have listed : (entry.1, entry.2.dims) ∈ reference.schema := List.mem_map_of_mem mem
      obtain ⟨own, inside, equal⟩ := List.mem_map.mp ((same part there).symm.subset listed)
      obtain ⟨name, dims⟩ := Prod.mk.inj equal
      obtain ⟨found, array⟩ := (proper part there).lookup_array inside
      rw [← name, found, array]
      exact ⟨rfl, dims, (proper part there).full own inside⟩
    have found : (parts.filterMap fun part => part.arrays.lookup entry.1) =
        parts.map fun part => part.array entry.1 :=
      List.filterMap_eq_map_iff_forall_eq_some.mpr fun part there => (has part there).1
    rw [found, DrawArray.pick_stack (k := k) chainDim _ (by simpa using inside), List.getElem_map]
    intro a mem
    obtain ⟨part, there, rfl⟩ := List.mem_map.mp mem
    exact (has part there).2
  have arrays : (stack reference parts).arrays.mapM (fun entry => do
      return (entry.1, ← entry.2.pick chainDim k)) =
        .ok (reference.names.map fun name => (name, parts[k].array name)) := by
    rw [mapM_eq_ok, stack, Dataset.names, List.map_map, List.forall₂_map_left_iff,
      List.forall₂_map_right_iff, List.forall₂_same]
    intro entry mem
    simp only [picked entry mem, Function.comp_apply]
    rfl
  rw [Posterior.chainPart, arrays, Dataset.inOrder, labels _ (List.getElem_mem inside)]
  rfl

end Stack

section Merged

/-- Whether all results have the same variables with the same dimensions. -/
def SameSchemas (results : ChainResults α) : Prop :=
  ∀ a ∈ results, ∀ b ∈ results,
    a.draws.schema.Perm b.draws.schema ∧ a.stats.schema.Perm b.stats.schema

/-- Whether results are proper datasets with the same labels. -/
structure AreProper (results : ChainResults α) : Prop where
  /-- The draws of each chain are. -/
  draws : ∀ result ∈ results, result.draws.IsProper
  /-- What the sampler says is. -/
  stats : ∀ result ∈ results, result.stats.IsProper
  /-- The labels are the same. -/
  labels : ∀ a ∈ results, ∀ b ∈ results,
    a.draws.labels = b.draws.labels ∧ a.stats.labels = b.stats.labels

instance (results : ChainResults α) : Decidable results.SameSchemas :=
  inferInstanceAs (Decidable (∀ a ∈ results, ∀ b ∈ results, _))

/-- Both datasets of one of them are proper. -/
theorem AreProper.isProper {results : ChainResults α} (proper : results.AreProper)
    {result : ChainResult α} (mem : result ∈ results) :
    result.draws.IsProper ∧ result.stats.IsProper :=
  ⟨proper.draws result mem, proper.stats result mem⟩

/-- The draws of all chains of results in their order. -/
def joined (first : ChainResult α) (rest : ChainResults α) : Posterior α :=
  ⟨(first :: rest).map ChainResult.chain, stack first.draws ((first :: rest).map ChainResult.draws),
    stack first.stats ((first :: rest).map ChainResult.stats)⟩

variable {results others : ChainResults α} {issued : Int}

/-- A result passes the check of its variables exactly if it has those of the first one. -/
theorem checkSchema_eq_ok_iff {reference result : ChainResult α}
    (left : result.draws.IsProper ∧ result.stats.IsProper)
    (right : reference.draws.IsProper ∧ reference.stats.IsProper) :
    checkSchema reference result = .ok () ↔ result.draws.schema.Perm reference.draws.schema ∧
      result.stats.schema.Perm reference.stats.schema := by
  rw [checkSchema, ← Dataset.sameSchema_iff left.1.distinct right.1.distinct,
    ← Dataset.sameSchema_iff left.2.distinct right.2.distinct, ← Bool.and_eq_true]
  split <;> simp_all

/-- What merging does with ordered results. -/
theorem merge_eq_of_ordered (accepted : (results.map ChainResult.chain).Perm (numbersTo issued))
    {first : ChainResult α} {rest : ChainResults α} (order : ordered results = first :: rest) :
    merge results issued =
      (rest.forM fun result => (checkSchema first result).mapError Failure.merge) >>= fun _ =>
        .ok (joined first rest) := by
  rw [merge, order, checkNumbers_eq_ok_iff.mpr accepted]
  rfl

/-- Merging refuses numbers that are not those issued. -/
theorem merge_of_not_perm (refused : ¬(results.map ChainResult.chain).Perm (numbersTo issued)) :
    ∃ e, merge results issued = .error (.merge e) := by
  rw [← checkNumbers_eq_ok_iff] at refused
  rw [merge]
  cases checked : checkNumbers (results.map ChainResult.chain) issued with
  | ok => exact absurd checked refused
  | error e => exact ⟨e, rfl⟩

/-- Merging fails with a fault of the results, or looks for a first one where no chain was issued. -/
theorem merge_eq_error {e : Failure} (failed : merge results issued = .error e) :
    (∃ fault, e = .merge fault) ∨ e = .fault .outOfBounds ∧ issued < 1 := by
  by_cases accepted : (results.map ChainResult.chain).Perm (numbersTo issued)
  case neg =>
    obtain ⟨fault, refused⟩ := merge_of_not_perm accepted
    exact .inl ⟨fault, Except.error.inj (failed.symm.trans refused)⟩
  cases order : ordered results with
  | nil =>
    rw [merge, order, checkNumbers_eq_ok_iff.mpr accepted] at failed
    refine .inr ⟨(Except.error.inj failed).symm, Int.not_le.mp fun some => ?_⟩
    have one : 1 ∈ numbersTo issued := mem_numbersTo.mpr ⟨Int.le_refl 1, some⟩
    rw [← chains_ordered accepted, order] at one
    cases one
  | cons first rest =>
    rw [merge_eq_of_ordered accepted order] at failed
    rcases bind_eq_error failed with schema | ⟨_, _, done⟩
    · obtain ⟨result, _, own⟩ := exists_of_forM_eq_error schema
      cases checked : checkSchema first result with
      | ok =>
        rw [checked] at own
        cases own
      | error fault =>
        rw [checked] at own
        exact .inl ⟨fault, (Except.error.inj own).symm⟩
    · cases done

/-- Merging does not depend on the order of the results. -/
theorem merge_eq_of_perm (perm : results.Perm others) :
    merge results issued = merge others issued := by
  have numbers : (results.map ChainResult.chain).Perm (others.map ChainResult.chain) := perm.map _
  have checks : checkNumbers (results.map ChainResult.chain) issued =
      checkNumbers (others.map ChainResult.chain) issued := checkNumbers_eq_of_perm numbers
  by_cases accepted : (results.map ChainResult.chain).Perm (numbersTo issued)
  · have distinct := accepted.nodup_iff.mpr (nodup_numbersTo issued)
    rw [merge, merge, checks, ordered_eq_of_perm distinct perm]
  · rw [← checkNumbers_eq_ok_iff, checks] at accepted
    rw [merge, merge, checks]
    cases checked : checkNumbers (others.map ChainResult.chain) issued with
    | ok => exact absurd checked accepted
    | error => rfl

/-- There is a first one among the results of all issued chains. -/
theorem exists_ordered (positive : 1 ≤ issued)
    (accepted : (results.map ChainResult.chain).Perm (numbersTo issued)) :
    ∃ first rest, ordered results = first :: rest := by
  cases order : ordered results with
  | cons first rest => exact ⟨first, rest, rfl⟩
  | nil =>
    have chains := chains_ordered accepted
    rw [order] at chains
    have one : 1 ∈ numbersTo issued := mem_numbersTo.mpr ⟨Int.le_refl 1, positive⟩
    rw [← chains] at one
    cases one

/-- Results of all issued chains are merged exactly if they have the same variables. -/
theorem merge_of_perm (proper : results.AreProper)
    (accepted : (results.map ChainResult.chain).Perm (numbersTo issued)) {first : ChainResult α}
    {rest : ChainResults α} (order : ordered results = first :: rest) :
    (results.SameSchemas → merge results issued = .ok (joined first rest)) ∧
      (¬results.SameSchemas → ∃ e, merge results issued = .error (.merge e)) := by
  have members : ∀ result, result ∈ first :: rest ↔ result ∈ results :=
    fun result => order ▸ (perm_ordered results).mem_iff
  have check (result) (mem : result ∈ first :: rest) := checkSchema_eq_ok_iff
    (proper.isProper ((members result).mp mem))
    (proper.isProper ((members first).mp List.mem_cons_self))
  have passed : (rest.forM fun result => (checkSchema first result).mapError Failure.merge) =
      .ok () ↔ results.SameSchemas := by
    rw [forM_eq_ok]
    constructor
    · intro each
      have like : ∀ result ∈ results, result.draws.schema.Perm first.draws.schema ∧
          result.stats.schema.Perm first.stats.schema := by
        intro result mem
        rcases List.mem_cons.mp ((members result).mpr mem) with rfl | later
        · exact ⟨.refl _, .refl _⟩
        · exact (check result (List.mem_cons_of_mem _ later)).mp
            (mapError_eq_ok.mp (each result later))
      exact fun a left b right => ⟨(like a left).1.trans (like b right).1.symm,
        (like a left).2.trans (like b right).2.symm⟩
    · intro same result mem
      have later := List.mem_cons_of_mem first mem
      exact mapError_eq_ok.mpr ((check result later).mpr
        (same result ((members result).mp later) first ((members first).mp List.mem_cons_self)))
  rw [← passed, merge_eq_of_ordered accepted order]
  cases checked : rest.forM fun result => (checkSchema first result).mapError Failure.merge with
  | ok =>
    have done : (Except.ok () : Except Failure Unit) = .ok () := rfl
    exact ⟨fun _ => rfl, fun refused => absurd done refused⟩
  | error e =>
    constructor
    · intro done
      cases done
    · intro _
      obtain ⟨result, _, failed⟩ := exists_of_forM_eq_error checked
      cases own : checkSchema first result with
      | ok => simp [own, Except.mapError] at failed
      | error fault =>
        rw [own] at failed
        exact ⟨fault, congrArg Except.error (Except.error.inj failed).symm⟩

/-- A chain is taken out of the merged draws as it was, its variables in the order of those of the
first one. -/
theorem chain_joined (proper : results.AreProper) (same : results.SameSchemas)
    (distinct : (results.map ChainResult.chain).Nodup) {first : ChainResult α}
    {rest : ChainResults α} (order : ordered results = first :: rest) {result : ChainResult α}
    (mem : result ∈ results) : (joined first rest).chain result.chain =
      .ok ⟨result.chain, result.draws.inOrder first.draws.names,
        result.stats.inOrder first.stats.names⟩ := by
  have members : ∀ result, result ∈ first :: rest ↔ result ∈ results :=
    fun result => order ▸ (perm_ordered results).mem_iff
  have head := (members first).mp List.mem_cons_self
  obtain ⟨k, inside, place⟩ := List.mem_iff_getElem.mp ((members result).mpr mem)
  have chains : ((first :: rest).map ChainResult.chain).Nodup := by
    rw [← order]
    exact (((perm_ordered results).map _).nodup_iff).mpr distinct
  have position : ((first :: rest).map ChainResult.chain).idxOf? result.chain = some k := by
    have found := idxOf?_getElem chains (k := k) (by simpa using inside)
    rwa [List.getElem_map, place] at found
  -- Both datasets of a chain are taken out in the same way.
  have part (read : ChainResult α → Dataset α)
      (each : ∀ other ∈ results, (read other).IsProper ∧
        (read other).schema.Perm (read first).schema ∧ (read other).labels = (read first).labels) :
      Posterior.chainPart (stack (read first) ((first :: rest).map read)) k =
        .ok ((read result).inOrder (read first).names) := by
    have all : ∀ part ∈ (first :: rest).map read, part.IsProper ∧
        part.schema.Perm (read first).schema ∧ part.labels = (read first).labels := by
      intro part listed
      obtain ⟨own, there, rfl⟩ := List.mem_map.mp listed
      exact each own ((members own).mp there)
    rw [chainPart_stack (fun own mem => (all own mem).1) (fun own mem => (all own mem).2.1)
      (fun own mem => (all own mem).2.2) (k := k) (by simpa using inside), List.getElem_map, place]
  have draws := part ChainResult.draws fun other mem =>
    ⟨proper.draws other mem, (same other mem first head).1, (proper.labels other mem first head).1⟩
  have stats := part ChainResult.stats fun other mem =>
    ⟨proper.stats other mem, (same other mem first head).2, (proper.labels other mem first head).2⟩
  simp only [Posterior.chain, joined, position, draws, stats]
  rfl

/-- Merging either joins the ordered results or finds a fault. -/
theorem merge_cases (positive : 1 ≤ issued) (proper : results.AreProper) :
    (((results.map ChainResult.chain).Perm (numbersTo issued) ∧ results.SameSchemas) ∧
      ∃ first rest, ordered results = first :: rest ∧
        merge results issued = .ok (joined first rest)) ∨
    (¬((results.map ChainResult.chain).Perm (numbersTo issued) ∧ results.SameSchemas) ∧
      ∃ e, merge results issued = .error (.merge e)) := by
  by_cases accepted : (results.map ChainResult.chain).Perm (numbersTo issued)
  · obtain ⟨first, rest, order⟩ := exists_ordered positive accepted
    obtain ⟨merged, refused⟩ := merge_of_perm proper accepted order
    by_cases same : results.SameSchemas
    · exact .inl ⟨⟨accepted, same⟩, first, rest, order, merged same⟩
    · exact .inr ⟨fun both => same both.2, refused same⟩
  · exact .inr ⟨fun both => accepted both.1, merge_of_not_perm accepted⟩

/-- Proper results are merged exactly if their numbers are those issued, each once, and they have
the same variables with the same dimensions; if not, the fault is reported. Merged draws hold the
chains in ascending order, each as it was given, whatever the order of the results. -/
theorem merge_spec (positive : 1 ≤ issued) (proper : results.AreProper) :
    ((∃ p, merge results issued = .ok p) ↔
      (results.map ChainResult.chain).Perm (numbersTo issued) ∧ results.SameSchemas) ∧
    ((¬∃ p, merge results issued = .ok p) → ∃ e, merge results issued = .error (.merge e)) ∧
    (∀ p, merge results issued = .ok p → p.chains = numbersTo issued ∧
      ∀ i ∈ numbersTo issued, ∃ result ∈ results,
        (∀ other ∈ results, other.chain = i ↔ other = result) ∧
        ∃ part, p.chain i = .ok part ∧ part.Alike result) ∧
    ∀ others : ChainResults α, others.Perm results →
      merge others issued = merge results issued := by
  refine ⟨?_, ?_, fun p done => ?_, fun others perm => merge_eq_of_perm perm⟩
  · rcases merge_cases positive proper with ⟨right, _, _, _, merged⟩ | ⟨wrong, e, failed⟩
    · exact ⟨fun _ => right, fun _ => ⟨_, merged⟩⟩
    · constructor
      · rintro ⟨p, done⟩
        rw [failed] at done
        cases done
      · exact fun right => absurd right wrong
  · intro none
    rcases merge_cases positive proper with ⟨_, _, _, _, merged⟩ | ⟨_, failed⟩
    · exact absurd ⟨_, merged⟩ none
    · exact failed
  rcases merge_cases positive proper with
    ⟨⟨accepted, same⟩, first, rest, order, merged⟩ | ⟨_, e, failed⟩
  · obtain rfl := Except.ok.inj (merged.symm.trans done)
    have distinct := accepted.nodup_iff.mpr (nodup_numbersTo issued)
    refine ⟨?_, fun i issued => ?_⟩
    · rw [← chains_ordered accepted, order, joined]
    obtain ⟨result, mem, rfl⟩ := List.mem_map.mp (accepted.symm.subset issued)
    refine ⟨result, mem, fun other there => ⟨fun equal => ?_, fun equal => equal ▸ rfl⟩, _,
      chain_joined proper same distinct order mem, ?_⟩
    · exact List.inj_on_of_nodup_map distinct there mem equal
    · have head : first ∈ results :=
        (perm_ordered results).subset (order ▸ List.mem_cons_self)
      have schemas := same first head result mem
      have names {a b : Dataset α} (perm : a.schema.Perm b.schema) : a.names.Perm b.names := by
        rw [← Dataset.keys_schema, ← Dataset.keys_schema]
        exact perm.map _
      exact ⟨rfl, (proper.draws result mem).alike_inOrder (names schemas.1),
        (proper.stats result mem).alike_inOrder (names schemas.2)⟩
  · rw [failed] at done
    cases done

/-- The results of three chains, given out of order, the second one with its variables the other way
round. -/
def sample : ChainResults Int :=
  [⟨3, ⟨[("b", ⟨[(drawDim, 2), ("k", 1)], #[5, 6]⟩), ("sigma", ⟨[(drawDim, 2)], #[7, 8]⟩)], []⟩,
      ⟨[("lp", ⟨[(drawDim, 2)], #[0, 1]⟩)], []⟩⟩,
    ⟨1, ⟨[("sigma", ⟨[(drawDim, 2)], #[3, 4]⟩), ("b", ⟨[(drawDim, 2), ("k", 1)], #[1, 2]⟩)], []⟩,
      ⟨[("lp", ⟨[(drawDim, 2)], #[2, 3]⟩)], []⟩⟩,
    ⟨2, ⟨[("b", ⟨[(drawDim, 2), ("k", 1)], #[9, 10]⟩), ("sigma", ⟨[(drawDim, 2)], #[11, 12]⟩)], []⟩,
      ⟨[("lp", ⟨[(drawDim, 2)], #[4, 5]⟩)], []⟩⟩]

/-- They are merged in the order of their chains, and each is taken out again. -/
theorem sample_merge : sample.AreProper ∧ ∃ p, merge sample 3 = .ok p ∧ p.chains = [1, 2, 3] ∧
    ∀ i ∈ [1, 2, 3], ∃ result ∈ sample, result.chain = i ∧
      ∃ part, p.chain i = .ok part ∧ part.Alike result := by
  have proper : sample.AreProper := ⟨by decide, by decide, by decide⟩
  have positive : (1 : Int) ≤ 3 := by decide
  obtain ⟨accepted, _, merged, _⟩ := merge_spec positive proper
  obtain ⟨p, done⟩ := accepted.mpr ⟨by decide, by decide⟩
  obtain ⟨chains, taken⟩ := merged p done
  refine ⟨proper, p, done, chains, fun i mem => ?_⟩
  obtain ⟨result, there, only, part⟩ := taken i mem
  exact ⟨result, there, (only result there).mpr rfl, part⟩

end Merged

end ChainResults

end Multilevel
