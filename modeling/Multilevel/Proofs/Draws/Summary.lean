import Mathlib
import Multilevel.Proofs.Draws.Exact
import Multilevel.Proofs.Draws.Pooling

/-!
# Summaries of pooled draws

The row of a summary for an element is that of the pool of its draws over all chains. How the draws
are spread over chains and in which order the dimensions stand does not matter
(`Summary.rows_pool`).
-/
namespace Multilevel

namespace DrawArray

variable {α : Type} {a b : DrawArray α} {place : String → Nat}

/-- Whether a second array has the draws of each element that a first one has, in whatever chains
and in whatever order, and the dimensions in whatever order. -/
structure Regroups (a b : DrawArray α) : Prop where
  /-- The dimensions besides those of chains and draws are the same. -/
  extra : b.dims.extra.Perm a.dims.extra
  /-- The draws of an element change their places with each other. -/
  moved : ∀ place, a.dims.extra.Within place → ∃ move : Nat × Nat → Nat × Nat,
    (a.samples.map move).Perm b.samples ∧ ∀ sample ∈ a.samples,
      b.get? (atSample place (move sample)) = a.get? (atSample place sample)

/-- An element has one pool of draws, however they are spread. -/
theorem Regroups.pool_eq (regrouped : a.Regroups b) (within : a.dims.extra.Within place) :
    b.pool place = a.pool place := by
  obtain ⟨move, spread, same⟩ := regrouped.moved place within
  rw [pool, pool, ← Multiset.coe_eq_coe.mpr spread, ← Multiset.map_coe, Multiset.filterMap_map,
    Multiset.filterMap_coe, Multiset.filterMap_coe]
  exact congrArg _ (List.filterMap_congr same)

/-- The dimensions in another order leave chains and draws alone. -/
theorem IsSampled.samples_transpose (sampled : a.IsSampled) {order : Dims}
    (perm : order.Perm a.dims) : (a.transpose order).samples = a.samples := by
  have distinct : (order.map Prod.fst).Nodup := (perm.map _).nodup_iff.mpr sampled.distinct
  obtain ⟨chains, -, first⟩ := sampled.chains
  obtain ⟨draws, -, second⟩ := sampled.draws
  rw [samples, samples, DrawArray.transpose, Entries.lookup_of_mem sampled.distinct first,
    Entries.lookup_of_mem sampled.distinct second,
    Entries.lookup_of_mem distinct (perm.mem_iff.mpr first),
    Entries.lookup_of_mem distinct (perm.mem_iff.mpr second)]

/-- An array has its own draws when its dimensions come in another order. -/
theorem IsSampled.regroups_transpose (sampled : a.IsSampled) {order : Dims}
    (perm : order.Perm a.dims) : a.Regroups (a.transpose order) where
  extra := perm.filter _
  moved place within :=
    ⟨id, by rw [sampled.samples_transpose perm, List.map_id], fun _ mem =>
      get?_transpose sampled.full sampled.distinct perm (sampled.within within mem)⟩

/-- An array of draws stays one when its dimensions come in another order. -/
theorem IsSampled.transpose (sampled : a.IsSampled) {order : Dims} (perm : order.Perm a.dims) :
    (a.transpose order).IsSampled where
  full := isFull_transpose sampled.full sampled.distinct perm
  distinct := (perm.map Prod.fst).nodup_iff.mpr sampled.distinct
  chains := by simpa [DrawArray.transpose, perm.mem_iff] using sampled.chains
  draws := by simpa [DrawArray.transpose, perm.mem_iff] using sampled.draws

/-- There is a chain, and it has a draw. -/
theorem IsSampled.exists_sample (sampled : a.IsSampled) : ∃ sample, sample ∈ a.samples := by
  obtain ⟨chains, some, first⟩ := sampled.chains
  obtain ⟨draws, more, second⟩ := sampled.draws
  refine ⟨(0, 0), List.mem_product.mpr ?_⟩
  rw [Entries.lookup_of_mem sampled.distinct first, Entries.lookup_of_mem sampled.distinct second,
    List.mem_range, List.mem_range, Option.getD_some, Option.getD_some]
  omega

/-- The chains have draws. -/
theorem IsSampled.size_sample_ne_zero (sampled : a.IsSampled) : Dims.size a.dims.sample ≠ 0 := by
  obtain ⟨sample, mem⟩ := sampled.exists_sample
  have place : [sample.1, sample.2] ∈ Dims.places a.dims.sample := by
    rw [places_sample]
    exact List.mem_map_of_mem mem
  rw [← Dims.length_places]
  exact (List.length_pos_of_mem place).ne'

/-- An element has draws. -/
theorem IsSampled.exists_mem_pool (sampled : a.IsSampled) (within : a.dims.extra.Within place) :
    ∃ x, x ∈ a.pool place := by
  obtain ⟨sample, mem⟩ := sampled.exists_sample
  obtain ⟨x, there⟩ := sampled.full.exists_get? (sampled.within within mem)
  exact ⟨x, (Multiset.mem_filterMap _ _).mpr ⟨sample, mem, there⟩⟩

end DrawArray

/-- An element of a variable, by its positions along the dimensions that are not those of chains and
draws. -/
structure Element where
  name : String
  extra : Dims
  positions : List Nat

/-- The position of an element along each named dimension. -/
def Element.place (e : Element) : String → Nat := e.extra.along e.positions

namespace Dataset

variable {α : Type}

/-- Whether all arrays of a dataset hold draws, and no two variables have one name. -/
structure IsSampled (d : Dataset α) : Prop where
  /-- No two variables have one name. -/
  distinct : d.names.Nodup
  /-- Every array holds draws. -/
  sampled : ∀ entry ∈ d.arrays, entry.2.IsSampled

/-- Whether a second dataset has the labels and, variable by variable, the draws of each element
that a first one has. -/
structure Regroups (d d' : Dataset α) : Prop where
  /-- The variables are the same, and so are the draws of their elements. -/
  arrays : Entries.Related DrawArray.Regroups d.arrays d'.arrays
  /-- The labels are the same. -/
  labels : d'.labels = d.labels

/-- The elements of all variables in the order in which they are summarised. -/
def elements (d : Dataset α) : List Element :=
  d.arrays.flatMap fun (name, a) =>
    (Dims.places a.dims.extra).map fun positions => ⟨name, a.dims.extra, positions⟩

/-- The label of an element. -/
def elementLabel (d : Dataset α) (e : Element) : String :=
  Summary.elementLabel d e.name e.extra e.positions

/-- The draws of an element over all chains. -/
def pool (d : Dataset α) (e : Element) : Multiset α :=
  match d.arrays.lookup e.name with
  | some a => a.pool e.place
  | none => 0

variable {d d' : Dataset α}

/-- The elements are those of the arrays. -/
theorem mem_elements {e : Element} : e ∈ d.elements ↔
    ∃ a, (e.name, a) ∈ d.arrays ∧ e.extra = a.dims.extra ∧ a.dims.extra.Inside e.positions := by
  obtain ⟨name, extra, positions⟩ := e
  simp only [elements, List.mem_flatMap, List.mem_map, Dims.mem_places, Prod.exists]
  constructor
  · rintro ⟨_, a, mem, _, inside, made⟩
    obtain ⟨rfl, rfl, rfl⟩ := Element.mk.inj made
    exact ⟨a, mem, rfl, inside⟩
  · rintro ⟨a, mem, rfl, inside⟩
    exact ⟨name, a, mem, positions, inside, rfl⟩

/-- The positions of an element lie within the dimensions of its variable. -/
theorem IsSampled.exists_within (sampled : d.IsSampled) {e : Element} (mem : e ∈ d.elements) :
    ∃ a, (e.name, a) ∈ d.arrays ∧ e.extra = a.dims.extra ∧ a.dims.extra.Within e.place := by
  obtain ⟨a, there, extra, inside⟩ := mem_elements.mp mem
  have distinct : (a.dims.extra.map Prod.fst).Nodup :=
    (sampled.sampled _ there).distinct.sublist (List.filter_sublist.map _)
  refine ⟨a, there, extra, fun dim within => ?_⟩
  rw [Element.place, extra]
  exact Dims.along_lt distinct inside within

/-- Variables with the same dimensions, in whatever order, have the same elements. -/
theorem IsSampled.exists_element (sampled : d.IsSampled)
    (same : Entries.Related (fun a b => b.dims.extra.Perm a.dims.extra) d.arrays d'.arrays)
    {e : Element} (mem : e ∈ d.elements) :
    ∃ e' ∈ d'.elements, e'.name = e.name ∧ e'.place = e.place := by
  obtain ⟨a, there, extra, within⟩ := sampled.exists_within mem
  obtain ⟨b, other, perm⟩ := same.exists_of_mem there
  refine ⟨⟨e.name, b.dims.extra, b.dims.extra.map fun dim => e.place dim.1⟩,
    mem_elements.mpr ⟨b, other, rfl, ?_⟩, rfl, ?_⟩
  · exact Dims.inside_map.mpr fun dim mem => within dim (perm.mem_iff.mp mem)
  · rw [Element.place, Element.place, extra]
    exact Dims.along_of_perm perm

/-- With the dimensions of each variable in the same order, the elements are in the same order. -/
theorem elements_eq (same : Entries.Related (fun a b => a.dims.extra = b.dims.extra)
    d.arrays d'.arrays) : d'.elements = d.elements := by
  rw [elements, elements, List.flatMap_def, List.flatMap_def]
  refine congrArg List.flatten (List.forall₂_eq_eq_eq ▸ ?_)
  rw [List.forall₂_map_left_iff, List.forall₂_map_right_iff]
  refine (same.imp fun _ _ order => order).flip.imp ?_
  rintro ⟨_, b⟩ ⟨_, a⟩ ⟨rfl, order⟩
  show List.map _ b.dims.extra.places = List.map _ a.dims.extra.places
  rw [show b.dims.extra = a.dims.extra from order.symm]

/-- The draws of an element are decided by its name and its positions along the named dimensions. -/
theorem pool_congr {e e' : Element} (name : e'.name = e.name) (place : e'.place = e.place) :
    d.pool e' = d.pool e := by
  rw [pool, pool, name, place]

/-- The draws of an element are those of the array of its variable. -/
theorem pool_eq (distinct : d.names.Nodup) {e : Element} {a : DrawArray α}
    (mem : (e.name, a) ∈ d.arrays) : d.pool e = a.pool e.place := by
  rw [pool, Entries.lookup_of_mem distinct mem]

end Dataset

namespace Summary

variable {d d' : Dataset ℝ} {qs : List ℝ}

/-- The rows of pooled draws under the labels of the elements. -/
noncomputable def listing (d : Dataset ℝ) (qs : List ℝ) (elements : List Element) :
    List (String × Row ℝ) :=
  Entries.putAll [] (elements.map fun e => (d.elementLabel e, Pool.row (d.pool e) qs))

/-- How the summary of draws depends on them, for a second dataset that has the same draws of each
element. -/
structure PoolsDraws (d d' : Dataset ℝ) (qs : List ℝ) : Prop where
  /-- The summary has the row of the pooled draws of each element. -/
  own : rows d qs = .ok (listing d qs d.elements)
  /-- The summary of the second dataset has the rows of the first one. -/
  regrouped : rows d' qs = .ok (listing d qs d'.elements)
  /-- Both datasets have the same elements. -/
  same : ∀ name place, (∃ e ∈ d.elements, e.name = name ∧ e.place = place) ↔
    ∃ e ∈ d'.elements, e.name = name ∧ e.place = place
  /-- With the other dimensions in one order, the summaries are the same. -/
  kept : Entries.Related (fun a b => a.dims.extra = b.dims.extra) d.arrays d'.arrays →
    rows d' qs = rows d qs
  /-- Quantiles are ordered, and they and the mean lie between the least and the greatest draw. -/
  described : ∀ e ∈ d.elements, Pool.Describes (d.pool e) qs (Pool.row (d.pool e) qs)

/-- The rows of a variable are those of the pools of its elements. -/
theorem rowsOfVariable_eq {name : String} {a : DrawArray ℝ} (sampled : a.IsSampled) :
    rowsOfVariable d qs name a = (Dims.places a.dims.extra).map fun positions =>
      (elementLabel d name a.dims.extra positions,
        Pool.row (a.pool (a.dims.extra.along positions)) qs) := by
  rw [rowsOfVariable, sampled.columns_transpose, List.zip_map', List.map_map]
  refine List.map_congr_left fun positions mem => congrArg (Prod.mk _) (row_eq qs ?_)
  have within : a.dims.extra.Within (a.dims.extra.along positions) := fun dim there =>
    Dims.along_lt (sampled.distinct.sublist (List.filter_sublist.map _))
      (Dims.mem_places.mp mem) there
  obtain ⟨x, there⟩ := sampled.exists_mem_pool within
  exact List.ne_nil_of_mem there

/-- The summary of draws has the row of the pooled draws of each element. -/
theorem rows_eq (sampled : d.IsSampled) (fractions : ∀ q ∈ qs, 0 ≤ q ∧ q ≤ 1) :
    rows d qs = .ok (listing d qs d.elements) := by
  have filled : (d.arrays.any fun (_, a) => Dims.size a.dims.sample == 0) = false := by
    rw [List.any_eq_false]
    rintro ⟨name, a⟩ mem
    simpa using (sampled.sampled _ mem).size_sample_ne_zero
  have asked : qs.all isFraction = true := by
    rw [List.all_eq_true]
    intro q mem
    obtain ⟨positive, below⟩ := fractions q mem
    show (decide (((0 : ℕ) : ℝ) ≤ q) && decide (q ≤ ((1 : ℕ) : ℝ))) = true
    simp [positive, below]
  have all : (d.arrays.flatMap fun (name, a) => rowsOfVariable d qs name a) =
      d.elements.map fun e => (d.elementLabel e, Pool.row (d.pool e) qs) := by
    rw [Dataset.elements, List.map_flatMap]
    refine List.flatMap_congr ?_
    rintro ⟨name, a⟩ mem
    show rowsOfVariable d qs name a = List.map _ (List.map _ (Dims.places a.dims.extra))
    rw [rowsOfVariable_eq (sampled.sampled _ mem), List.map_map]
    refine List.map_congr_left fun positions _ => ?_
    rw [Function.comp_apply, d.pool_eq sampled.distinct mem]
    rfl
  simp only [rows, filled, asked, all, Bool.not_true, Bool.and_false]
  rfl

section Regroups

variable (sampled : d.IsSampled) (sampled' : d'.IsSampled) (regrouped : d.Regroups d')

include regrouped

/-- The dimensions besides those of chains and draws are the same in both datasets. -/
theorem related_extra :
    Entries.Related (fun a b => b.dims.extra.Perm a.dims.extra) d.arrays d'.arrays :=
  regrouped.arrays.imp fun _ _ own => own.extra

include sampled sampled'

/-- An element has the same draws in both datasets. -/
theorem pool_eq_of_regroups {e : Element} (mem : e ∈ d.elements) : d'.pool e = d.pool e := by
  obtain ⟨a, there, -, within⟩ := sampled.exists_within mem
  obtain ⟨b, other, own⟩ := regrouped.arrays.exists_of_mem there
  rw [d.pool_eq sampled.distinct there, d'.pool_eq sampled'.distinct other, own.pool_eq within]

/-- Both datasets have the same elements. -/
theorem elements_iff (name : String) (place : String → Nat) :
    (∃ e ∈ d.elements, e.name = name ∧ e.place = place) ↔
      ∃ e ∈ d'.elements, e.name = name ∧ e.place = place := by
  have extra := related_extra regrouped
  constructor
  · rintro ⟨e, mem, rfl, rfl⟩
    exact sampled.exists_element extra mem
  · rintro ⟨e, mem, rfl, rfl⟩
    exact sampled'.exists_element (extra.symm fun _ _ perm => perm.symm) mem

/-- The rows of both datasets are those of the pools of the first one. -/
theorem listing_eq (qs : List ℝ) : listing d' qs d'.elements = listing d qs d'.elements := by
  have label (e : Element) : d'.elementLabel e = d.elementLabel e := by
    have each : d'.label = d.label := by
      funext dim k
      rw [Dataset.label, Dataset.label, regrouped.labels]
    rw [Dataset.elementLabel, Dataset.elementLabel, elementLabel, elementLabel, each]
  refine congrArg _ (List.map_congr_left fun e mem => ?_)
  -- The listed element may have its dimensions in another order than the first dataset has them, so
  -- the pools are compared at the element of the first dataset that stands for the same place.
  obtain ⟨own, there, name, place⟩ :=
    (elements_iff sampled sampled' regrouped e.name e.place).mpr ⟨e, mem, rfl, rfl⟩
  rw [label, ← Dataset.pool_congr name place, ← Dataset.pool_congr name place,
    pool_eq_of_regroups sampled sampled' regrouped there]

end Regroups

/-- A summary depends on the pools of draws alone: in whatever chains and order the draws of an
element stand, and in whatever order the dimensions, its row is that of their pool, with quantiles in
order and the mean and all quantiles between the least and the greatest draw. -/
theorem rows_pool (sampled : d.IsSampled) (sampled' : d'.IsSampled) (regrouped : d.Regroups d')
    (fractions : ∀ q ∈ qs, 0 ≤ q ∧ q ≤ 1) : PoolsDraws d d' qs where
  own := rows_eq sampled fractions
  regrouped := by
    rw [rows_eq sampled' fractions, listing_eq sampled sampled' regrouped]
  same := elements_iff sampled sampled' regrouped
  kept order := by
    rw [rows_eq sampled' fractions, rows_eq sampled fractions,
      listing_eq sampled sampled' regrouped, Dataset.elements_eq order]
  described e mem := by
    obtain ⟨a, there, -, within⟩ := sampled.exists_within mem
    refine Pool.row_describes ?_ fun q asked => (fractions q asked).1
    obtain ⟨x, drawn⟩ := (sampled.sampled _ there).exists_mem_pool within
    rw [d.pool_eq sampled.distinct there]
    exact fun none => Multiset.notMem_zero x (none ▸ drawn)

/-- The draws of a coefficient for two levels. -/
noncomputable def sampleEffects : DrawArray ℝ :=
  ⟨[(chainDim, 2), (drawDim, 2), ("g", 2)], #[0, 1, 0, 2, 0, 3, 2, 4]⟩

/-- Draws of two variables. -/
noncomputable def sample : Dataset ℝ where
  arrays := [("r", sampleEffects), ("sigma", ⟨[(chainDim, 2), (drawDim, 2)], #[1, 2, 3, 4]⟩)]
  labels := [("g", ["u", "v"])]

/-- The same draws with the dimensions of one variable turned around and the draws of the other one
moved between chains. -/
noncomputable def movedSample : Dataset ℝ where
  arrays := [("r", sampleEffects.transpose [("g", 2), (drawDim, 2), (chainDim, 2)]),
    ("sigma", ⟨[(chainDim, 2), (drawDim, 2)], #[4, 1, 2, 3]⟩)]
  labels := [("g", ["u", "v"])]

/-- Where the draws of the other variable move to: the place of the next one, or the first one. -/
def nextSample (place : Nat × Nat) : Nat × Nat :=
  ((2 * place.1 + place.2 + 1) / 2 % 2, (place.2 + 1) % 2)

/-- The rows of a summary stay when dimensions are turned around and draws are moved. -/
theorem sample_rows_pool : sample.IsSampled ∧ movedSample.IsSampled ∧ sample.Regroups movedSample ∧
    (∀ q ∈ [(1 / 4 : ℝ), 1 / 2], 0 ≤ q ∧ q ≤ 1) ∧ PoolsDraws sample movedSample [1 / 4, 1 / 2] := by
  have effects : sampleEffects.IsSampled :=
    ⟨rfl, by decide, ⟨2, by decide, by decide⟩, ⟨2, by decide, by decide⟩⟩
  have perm : [("g", 2), (drawDim, 2), (chainDim, 2)].Perm sampleEffects.dims := by decide
  have single (values : Array ℝ) (four : values.size = 4) :
      (⟨[(chainDim, 2), (drawDim, 2)], values⟩ : DrawArray ℝ).IsSampled :=
    ⟨four, by simp [chainDim, drawDim], ⟨2, by decide, by simp⟩, ⟨2, by decide, by simp⟩⟩
  have sampled : sample.IsSampled := by
    refine ⟨by decide, fun entry mem => ?_⟩
    simp only [sample, List.mem_cons, List.not_mem_nil, or_false] at mem
    rcases mem with rfl | rfl
    · exact effects
    · exact single _ rfl
  have sampled' : movedSample.IsSampled := by
    refine ⟨by decide, fun entry mem => ?_⟩
    simp only [movedSample, List.mem_cons, List.not_mem_nil, or_false] at mem
    rcases mem with rfl | rfl
    · exact effects.transpose perm
    · exact single _ rfl
  have regrouped : sample.Regroups movedSample := by
    refine ⟨.cons ⟨rfl, effects.regroups_transpose perm⟩ (.cons ⟨rfl, .refl _, fun _ _ => ?_⟩ .nil),
      rfl⟩
    refine ⟨nextSample, by decide, fun s mem => ?_⟩
    have listed : s ∈ [(0, 0), (0, 1), (1, 0), (1, 1)] := mem
    simp only [List.mem_cons, List.not_mem_nil, or_false] at listed
    rcases listed with rfl | rfl | rfl | rfl <;> rfl
  have fractions : ∀ q ∈ [(1 / 4 : ℝ), 1 / 2], 0 ≤ q ∧ q ≤ 1 := by
    intro q mem
    simp only [List.mem_cons, List.not_mem_nil, or_false] at mem
    rcases mem with rfl | rfl <;> norm_num
  exact ⟨sampled, sampled', regrouped, fractions, rows_pool sampled sampled' regrouped fractions⟩

end Summary

end Multilevel
