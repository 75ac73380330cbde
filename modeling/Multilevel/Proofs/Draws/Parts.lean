import Multilevel.Proofs.Draws.Merge

/-!
# Draws taken apart

The draws of a run whose arrays have the chains as their first dimension fall into the parts of its
chains, and nothing is lost: merged again, the parts give the draws of the run
(`ChainResults.merge_parts`).
-/
namespace Multilevel

variable {α : Type}

namespace Dataset

/-- Whether each array of a dataset has the chains as its first dimension. -/
structure IsByChain (d : Dataset α) (chains : Nat) : Prop extends d.IsProper where
  /-- The chains come first. -/
  leading : ∀ entry ∈ d.arrays, entry.2.dims.head? = some (chainDim, chains)

/-- The part of a dataset that belongs to the chain at a place. -/
def part (d : Dataset α) (k : Nat) : Dataset α :=
  { d with arrays := d.arrays.map fun (name, a) => (name, a.slice k) }

variable {d : Dataset α} {chains : Nat}

/-- The variables of a part are those of the dataset. -/
theorem names_part (d : Dataset α) (k : Nat) : (d.part k).names = d.names := by
  simp [part, names, Function.comp_def]

/-- The variables of all parts have the same dimensions. -/
theorem schema_part (d : Dataset α) (j k : Nat) : (d.part j).schema = (d.part k).schema := by
  simp [part, schema, Function.comp_def, DrawArray.slice]

/-- The part that is taken out for a chain. -/
theorem IsByChain.chainPart (byChain : d.IsByChain chains) {k : Nat} (inside : k < chains) :
    Posterior.chainPart d k = .ok (d.part k) := by
  have arrays : d.arrays.mapM (fun (name, a) => do return (name, ← a.pick chainDim k)) =
      .ok (d.part k).arrays := by
    rw [mapM_eq_ok, part, List.forall₂_map_right_iff, List.forall₂_same]
    intro entry mem
    simp only [DrawArray.pick_leading (byChain.leading entry mem) inside]
    rfl
  rw [Posterior.chainPart, arrays]
  rfl

/-- The parts are proper. -/
theorem IsByChain.part (byChain : d.IsByChain chains) {k : Nat} (inside : k < chains) :
    (d.part k).IsProper where
  distinct := by
    rw [names_part]
    exact byChain.distinct
  full entry mem := by
    obtain ⟨own, there, rfl⟩ := List.mem_map.mp mem
    exact (byChain.full own there).slice (byChain.leading own there) inside

/-- The parts give the dataset when they are stacked. -/
theorem IsByChain.stack_parts (byChain : d.IsByChain chains) (j : Nat) :
    ChainResults.stack (d.part j) ((List.range chains).map d.part) = d := by
  have each : ∀ entry ∈ d.arrays, DrawArray.stack chainDim entry.2.dims.tail
      (((List.range chains).map d.part).filterMap fun part => part.arrays.lookup entry.1) =
        entry.2 := by
    intro entry mem
    have found : ((List.range chains).map d.part).filterMap (fun part =>
        part.arrays.lookup entry.1) = (List.range chains).map entry.2.slice := by
      rw [List.filterMap_map]
      refine List.filterMap_eq_map_iff_forall_eq_some.mpr fun k inside => ?_
      have there : (entry.1, entry.2.slice k) ∈ (d.part k).arrays :=
        List.mem_map_of_mem (f := fun own : String × DrawArray α => (own.1, own.2.slice k)) mem
      exact ((byChain.part (List.mem_range.mp inside)).lookup_array there).1
    rw [found, (byChain.full entry mem).stack_slices (byChain.leading entry mem)]
  have arrays : (ChainResults.stack (d.part j) ((List.range chains).map d.part)).arrays =
      d.arrays := by
    rw [ChainResults.stack, Dataset.part, List.map_map]
    refine (List.map_congr_left fun entry mem => ?_).trans (List.map_id _)
    exact congrArg (Prod.mk entry.1) (each entry mem)
  calc ChainResults.stack (d.part j) ((List.range chains).map d.part)
      = ⟨(ChainResults.stack (d.part j) ((List.range chains).map d.part)).arrays, d.labels⟩ := rfl
    _ = d := by rw [arrays]

end Dataset

namespace Posterior

/-- Whether all arrays of a run have its chains as their first dimension. -/
structure IsByChain (p : Posterior α) : Prop where
  /-- The draws have. -/
  draws : p.draws.IsByChain p.chains.length
  /-- What the sampler says has. -/
  stats : p.stats.IsByChain p.chains.length

/-- The results of the chains of a run. -/
def parts (p : Posterior α) : ChainResults α :=
  p.chains.zipIdx.map fun (number, k) => ⟨number, p.draws.part k, p.stats.part k⟩

variable {p : Posterior α}

/-- The results are those of the chains. -/
theorem chains_parts (p : Posterior α) : p.parts.map ChainResult.chain = p.chains := by
  rw [parts, List.map_map]
  exact List.zipIdx_map_fst 0 p.chains

/-- The draws of the results are the parts of the draws. -/
theorem map_parts (p : Posterior α) {β : Type} (read : ChainResult α → β) (part : Nat → β)
    (own : ∀ number k, read ⟨number, p.draws.part k, p.stats.part k⟩ = part k) :
    p.parts.map read = (List.range p.chains.length).map part := by
  rw [parts, List.map_map, List.range_eq_range', ← List.zipIdx_map_snd 0 p.chains, List.map_map]
  exact List.map_congr_left fun entry _ => own entry.1 entry.2

/-- Each result holds the parts at one place. -/
theorem exists_of_mem_parts {result : ChainResult α} (mem : result ∈ p.parts) :
    ∃ k < p.chains.length, result.draws = p.draws.part k ∧ result.stats = p.stats.part k := by
  obtain ⟨⟨number, k⟩, there, rfl⟩ := List.mem_map.mp mem
  exact ⟨k, (List.mem_zipIdx' there).1, rfl, rfl⟩

/-- The result that is taken out for the chain at a place. -/
theorem IsByChain.chain_of_getElem? (byChain : p.IsByChain) (distinct : p.chains.Nodup) {k : Nat}
    {number : Int} (place : p.chains[k]? = some number) :
    p.chain number = .ok ⟨number, p.draws.part k, p.stats.part k⟩ := by
  obtain ⟨inside, rfl⟩ := List.getElem?_eq_some_iff.mp place
  simp only [Posterior.chain, ChainResults.idxOf?_getElem distinct inside,
    byChain.draws.chainPart inside, byChain.stats.chainPart inside]
  rfl

/-- The results that are taken out are the parts. -/
theorem IsByChain.forall₂_chain (byChain : p.IsByChain) (distinct : p.chains.Nodup) :
    List.Forall₂ (fun number part => p.chain number = .ok part) p.chains p.parts := by
  have all : List.Forall₂ (fun number part => p.chain number = .ok part)
      (p.chains.zipIdx.map Prod.fst) p.parts := by
    rw [parts, List.forall₂_map_left_iff, List.forall₂_map_right_iff, List.forall₂_same]
    intro entry mem
    exact byChain.chain_of_getElem? distinct (List.mem_zipIdx_iff_getElem?.mp mem)
  rwa [List.zipIdx_map_fst] at all

end Posterior

namespace ChainResults

variable {p : Posterior α} {issued : Int}

/-- Parts are well formed. -/
theorem areProper_parts (byChain : p.IsByChain) : AreProper p.parts ∧ SameSchemas p.parts := by
  refine ⟨⟨fun result mem => ?_, fun result mem => ?_, fun a left b right => ?_⟩,
    fun a left b right => ?_⟩
  · obtain ⟨k, inside, draws, _⟩ := Posterior.exists_of_mem_parts mem
    exact draws ▸ byChain.draws.part inside
  · obtain ⟨k, inside, _, stats⟩ := Posterior.exists_of_mem_parts mem
    exact stats ▸ byChain.stats.part inside
  · obtain ⟨j, _, draws, stats⟩ := Posterior.exists_of_mem_parts left
    obtain ⟨k, _, draws', stats'⟩ := Posterior.exists_of_mem_parts right
    rw [draws, stats, draws', stats']
    exact ⟨rfl, rfl⟩
  · obtain ⟨j, _, draws, stats⟩ := Posterior.exists_of_mem_parts left
    obtain ⟨k, _, draws', stats'⟩ := Posterior.exists_of_mem_parts right
    rw [draws, stats, draws', stats']
    exact ⟨.of_eq (Dataset.schema_part _ j k), .of_eq (Dataset.schema_part _ j k)⟩

/-- The parts of a run with the chains from one on give the run when they are merged. -/
theorem merge_parts (byChain : p.IsByChain) (positive : 1 ≤ issued)
    (numbers : p.chains = numbersTo issued) : merge p.parts issued = .ok p := by
  obtain ⟨proper, same⟩ := areProper_parts byChain
  have accepted : (p.parts.map ChainResult.chain).Perm (numbersTo issued) := by
    rw [Posterior.chains_parts, numbers]
  have inOrder : ordered p.parts = p.parts := by
    refine List.mergeSort_of_pairwise ?_
    have sorted := (sorted_numbersTo issued).imp fun {a b} (below : a < b) => Int.le_of_lt below
    rw [← numbers, ← Posterior.chains_parts, List.pairwise_map] at sorted
    simpa using sorted
  obtain ⟨first, rest, order⟩ := exists_ordered positive accepted
  rw [(merge_of_perm proper accepted order).1 same]
  rw [inOrder] at order
  obtain ⟨k, _, own⟩ := Posterior.exists_of_mem_parts (order ▸ List.mem_cons_self)
  have draws : (first :: rest).map ChainResult.draws =
      (List.range p.chains.length).map p.draws.part :=
    order ▸ p.map_parts _ _ fun _ _ => rfl
  have stats : (first :: rest).map ChainResult.stats =
      (List.range p.chains.length).map p.stats.part :=
    order ▸ p.map_parts _ _ fun _ _ => rfl
  have chains : (first :: rest).map ChainResult.chain = p.chains := order ▸ p.chains_parts
  rw [joined, chains, draws, stats, own.1, own.2, byChain.draws.stack_parts,
    byChain.stats.stack_parts]

end ChainResults

end Multilevel
