import Multilevel.Proofs.Draws.NewNames

/-!
# Renaming keeps all draws

Renaming the draws that a fit keeps returns, and its result holds every element of every variable
under one name, exactly if no two new names are the same and none is that of a labelled grouping
factor (`Specification.rename_complete`). Neither is checked: a factor that is called like a
parameter of the response takes its place without an error (`Specification.sigma_displaced`).
-/
namespace Multilevel

/-- The dimensions of a dataset with their sizes, those of its arrays before those of its labels. -/
def Dataset.dimensions {α : Type} (d : Dataset α) : Dims :=
  (d.arrays.flatMap fun (_, a) => a.dims) ++
    d.labels.map fun (name, labels) => (name, labels.length)

/-- No dimension of a dataset has two sizes. -/
theorem Dataset.hasConsistentSizes_iff {α : Type} {d : Dataset α} :
    d.hasConsistentSizes = true ↔
      ∀ one ∈ d.dimensions, ∀ two ∈ d.dimensions, one.1 = two.1 → one.2 = two.2 := by
  show (d.dimensions.all fun dim => d.dimensions.lookup dim.1 == some dim.2) = true ↔ _
  simp only [List.all_eq_true, beq_iff_eq]
  constructor
  · intro found one left two right same
    have first := found one left
    rw [same, found two right] at first
    exact (Option.some.inj first).symm
  · rintro consistent ⟨name, count⟩ mem
    obtain ⟨other, found⟩ := Entries.exists_lookup_iff.mpr (List.mem_map_of_mem (f := Prod.fst) mem)
    exact found.trans (congrArg some (consistent _ (Entries.mem_of_lookup found) _ mem rfl))

/-- The name of a dimension gives the variable and the number of the dimension. -/
theorem dimName_inj {name name' : String} {k k' : Nat} (same : dimName name k = dimName name' k') :
    name = name' ∧ k = k' := by
  have parts (name : String) (k : Nat) :
      Variable.words (dimName name k) = Variable.words name ++ ["dim", toString k] := by
    have split : dimName name k = name ++ "_" ++ ("dim" ++ "_" ++ toString k) := by
      rw [dimName, show "_dim_" = "_" ++ ("dim" ++ "_") from rfl]
      simp only [String.append_assoc]
    rw [split, Variable.words_joined, Variable.words_append (by decide), Variable.words_number]
  have words := congrArg Variable.words same
  rw [parts, parts] at words
  obtain ⟨left, right⟩ := List.append_inj' words rfl
  have number := congrArg Text.natural? (List.cons.inj (List.cons.inj right).2).1
  rw [Text.natural?_toString, Text.natural?_toString] at number
  exact ⟨Variable.words_injective left, Option.some.inj number⟩

/-- The sizes of the dimensions of the draws of a variable. -/
theorem sizes_drawnDims (name : String) (chains draws : Nat) (shape : List Nat) :
    (drawnDims name chains draws shape).map Prod.snd = chains :: draws :: shape := by
  rw [drawnDims, List.map_cons, List.map_cons, List.map_map]
  exact congrArg (chains :: draws :: ·) (List.zipIdx_map_fst 0 shape)

/-- A dimension of the draws of a variable. -/
theorem of_mem_drawnDims {name : String} {chains draws : Nat} {shape : List Nat}
    {dim : String × Nat} (mem : dim ∈ drawnDims name chains draws shape) :
    dim = (chainDim, chains) ∨ dim = (drawDim, draws) ∨
      ∃ k count, shape[k]? = some count ∧ dim = (dimName name k, count) := by
  rcases List.mem_cons.mp mem with chain | mem
  · exact .inl chain
  rcases List.mem_cons.mp mem with draw | mem
  · exact .inr (.inl draw)
  obtain ⟨⟨count, k⟩, listed, rfl⟩ := List.mem_map.mp mem
  exact .inr (.inr ⟨k, count, List.mk_mem_zipIdx_iff_getElem?.mp listed, rfl⟩)

namespace TermNames

variable {α : Type}

/-- A share of a variable under its new name. -/
structure Piece (α : Type) where
  name : String
  share : Share
  /-- The draws of the variable. -/
  source : DrawArray α

/-- The shares of all variables of a dataset. -/
def pieces (terms : TermNames) (d : Dataset α) : List (Piece α) :=
  d.arrays.flatMap fun (name, a) => (terms.sharesOf name).map fun (new, share) => ⟨new, share, a⟩

/-- Whether a dataset holds the shares of all variables of another one, each under its new name
alone, and nothing else. -/
structure KeepsAll (terms : TermNames) (d r : Dataset α) (chains draws : Nat) : Prop where
  /-- No name is given twice. -/
  distinct : r.names.Nodup
  /-- The variables are the shares. -/
  holds : List.Forall₂ (fun piece entry => entry.1 = piece.name ∧
    piece.share.Holds chains draws piece.source entry.2) (terms.pieces d) r.arrays

/-- The names of the shares are the new names. -/
theorem names_pieces (terms : TermNames) (d : Dataset α) :
    (terms.pieces d).map Piece.name = terms.newNames d := by
  rw [pieces, newNames, Dataset.names, List.map_flatMap, List.flatMap_map, List.map_flatMap]
  refine List.flatMap_congr fun entry _ => ?_
  rw [List.map_map]
  rfl

/-- A dataset that holds all shares has the new names. -/
theorem KeepsAll.names {terms : TermNames} {d r : Dataset α} {chains draws : Nat}
    (all : terms.KeepsAll d r chains draws) : r.names = terms.newNames d := by
  rw [← names_pieces, Dataset.names, eq_comm, ← List.forall₂_eq_eq_eq, List.forall₂_map_left_iff,
    List.forall₂_map_right_iff]
  exact all.holds.imp fun _ _ held => held.1.symm

/-- Collected arrays are among the parts. -/
theorem mem_collected {labels : List (String × List String)}
    {parts : List (List (String × DrawArray α))} {entry : String × DrawArray α}
    (mem : entry ∈ (collected labels parts).arrays) : entry ∈ parts.flatten := by
  have among := Entries.mem_of_mem_putAll (List.mem_filter.mp mem).1
  obtain ⟨own, inside, among⟩ := List.mem_flatMap.mp among
  exact List.mem_flatten.mpr ⟨own, inside, Entries.mem_of_mem_putAll among⟩

/-- Each part takes a share of a variable. -/
theorem AreParts.exists_share {terms : TermNames} {d : Dataset α}
    {parts : List (List (String × DrawArray α))} (are : AreParts terms d parts)
    {part : String × DrawArray α} (mem : part ∈ parts.flatten) :
    ∃ entry ∈ d.arrays, ∃ share ∈ terms.sharesOf entry.1, share.2.take? entry.2 = some part.2 := by
  obtain ⟨own, among, inside⟩ := List.mem_flatten.mp mem
  obtain ⟨entry, there, takes⟩ := exists_mem_of_forall₂ (List.Forall₂.flip are) among
  obtain ⟨share, listed, _, taken⟩ := exists_mem_of_forall₂ (List.Forall₂.flip takes) inside
  exact ⟨entry, there, share, listed, taken⟩

/-- A label that comes with a share of a variable is that of a labelled dimension. -/
theorem exists_group_of_label {terms : TermNames} (apart : AreApart terms) {d : Dataset α}
    {entry : String × DrawArray α} (mem : entry ∈ d.arrays) {share : String × Share}
    (listed : share ∈ terms.sharesOf entry.1) {label : String × List String}
    (own : label ∈ share.2.labels) :
    ∃ group ∈ terms.groups, terms.Labels d group.factor ∧ label = (group.factor, group.levels) := by
  have among : label ∈ terms.labelsOf d := List.mem_flatMap.mpr
    ⟨share, List.mem_flatMap.mpr ⟨entry.1, List.mem_map_of_mem mem, listed⟩, own⟩
  obtain ⟨group, there, k, below, present, rfl⟩ := (mem_labelsOf apart).mp among
  exact ⟨group, there, .inr ⟨group, there, rfl, k, below, present⟩, rfl⟩

end TermNames

namespace Specification

/-- Whether a dataset holds draws of variables that a fit keeps, in the shapes that data imply. -/
structure HoldsKept {α : Type} (s : Specification) (data : BuildData) (d : Dataset α)
    (chains draws : Nat) : Prop where
  /-- No variable is there twice. -/
  distinct : d.names.Nodup
  /-- No dimension has labels. -/
  unlabelled : d.labels = []
  /-- Each variable is a kept one with the shape of its declaration. -/
  drawn : ∀ entry ∈ d.arrays, ∃ v type shape, (v, type) ∈ s.kept ∧ entry.1 = v.name ∧
    type.shape? data = some shape ∧ entry.2.IsDrawn v.name chains draws shape

instance {α : Type} (s : Specification) (data : BuildData) (d : Dataset α) (chains draws : Nat) :
    Decidable (HoldsKept s data d chains draws) :=
  decidable_of_iff (d.names.Nodup ∧ d.labels = [] ∧ ∀ entry ∈ d.arrays, ∃ own ∈ s.kept,
      entry.1 = own.1.name ∧ ∃ shape ∈ own.2.shape? data,
        entry.2.dims = drawnDims own.1.name chains draws shape ∧ entry.2.IsFull) (by
    constructor
    · rintro ⟨distinct, unlabelled, drawn⟩
      refine ⟨distinct, unlabelled, fun entry mem => ?_⟩
      obtain ⟨⟨v, type⟩, kept, name, shape, sized, dims, full⟩ := drawn entry mem
      exact ⟨v, type, shape, kept, name, sized, dims, full⟩
    · rintro ⟨distinct, unlabelled, drawn⟩
      refine ⟨distinct, unlabelled, fun entry mem => ?_⟩
      obtain ⟨v, type, shape, kept, name, sized, dims, full⟩ := drawn entry mem
      exact ⟨⟨v, type⟩, kept, name, shape, sized, dims, full⟩)

/-- Whether a dataset holds draws of kept variables in the shapes of the tree. -/
structure DrawsKept {α : Type} (s : Specification) (d : Dataset α) (chains draws : Nat) : Prop where
  /-- No variable is there twice. -/
  distinct : d.names.Nodup
  /-- No dimension has labels. -/
  unlabelled : d.labels = []
  /-- Each variable is a kept one of its shape. -/
  drawn : ∀ entry ∈ d.arrays, ∃ v shape, entry.1 = v.name ∧
    entry.2.IsDrawn v.name chains draws shape ∧ IsKept s v shape

section Kept

open TermNames (AreParts HasDimensions KeepsAll Piece Takes collected)

variable {α : Type} {a : ModelArguments} {s : Specification} {d r : Dataset α}
  {chains draws : Nat}

/-- The shapes that data imply are those of the tree. -/
theorem HoldsKept.drawsKept {data : BuildData} (holds : HoldsKept s data d chains draws)
    (normal : IsNormal a s) (done : BuildData.ofSpecification s = .ok data) :
    DrawsKept s d chains draws where
  distinct := holds.distinct
  unlabelled := holds.unlabelled
  drawn entry mem := by
    obtain ⟨v, type, shape, kept, name, sized, drawn⟩ := holds.drawn entry mem
    obtain ⟨own, same, listed⟩ := normal.hasKeptShape done kept
    obtain rfl := Option.some.inj (sized.symm.trans same)
    exact ⟨v, shape, name, drawn, listed⟩

namespace DrawsKept

/-- No dimension of the draws has two sizes. -/
theorem size_eq (holds : DrawsKept s d chains draws) {entry entry' : String × DrawArray α}
    (mem : entry ∈ d.arrays) (mem' : entry' ∈ d.arrays) {one two : String × Nat}
    (left : one ∈ entry.2.dims) (right : two ∈ entry'.2.dims) (same : one.1 = two.1) :
    one.2 = two.2 := by
  obtain ⟨v, shape, name, drawn, _⟩ := holds.drawn entry mem
  obtain ⟨v', shape', name', drawn', _⟩ := holds.drawn entry' mem'
  rw [drawn.dims] at left
  rw [drawn'.dims] at right
  rcases of_mem_drawnDims left with rfl | rfl | ⟨k, count, found, rfl⟩ <;>
    rcases of_mem_drawnDims right with rfl | rfl | ⟨k', count', found', rfl⟩
  · rfl
  · exact absurd same (show chainDim ≠ drawDim by decide)
  · exact absurd same.symm (dimName_ne _ _).1
  · exact absurd same (show drawDim ≠ chainDim by decide)
  · rfl
  · exact absurd same.symm (dimName_ne _ _).2
  · exact absurd same (dimName_ne _ _).1
  · exact absurd same (dimName_ne _ _).2
  · obtain ⟨names, rfl⟩ := dimName_inj same
    obtain rfl := List.inj_on_of_nodup_map holds.distinct mem mem'
      (name.trans (names.trans name'.symm))
    have shapes := congrArg (List.map Prod.snd) (drawn.dims.symm.trans drawn'.dims)
    rw [sizes_drawnDims, sizes_drawnDims] at shapes
    obtain rfl := (List.cons.inj (List.cons.inj shapes).2).2
    exact Option.some.inj (found.symm.trans found')

/-- Every variable has the dimensions that its scheme asks for. -/
theorem hasDimensions (holds : DrawsKept s d chains draws) (normal : IsNormal a s) :
    ∀ entry ∈ d.arrays, HasDimensions s.termNames entry := by
  rintro ⟨name, array⟩ mem scheme found
  obtain ⟨v, shape, rfl, drawn, kept⟩ := holds.drawn _ mem
  rw [(normal.isShared kept).2 scheme found, drawn.dims, extra_drawnDims, List.length_map,
    List.length_zipIdx]

/-- The shares of all variables can be taken, unless levels would lie along the chains or draws. -/
theorem exists_areParts (holds : DrawsKept s d chains draws) (normal : IsNormal a s)
    (free : ∀ name, s.termNames.Labels d name → name ≠ chainDim ∧ name ≠ drawDim) :
    ∃ parts, AreParts s.termNames d parts := by
  refine exists_forall₂ fun entry mem => ?_
  obtain ⟨v, shape, name, drawn, kept⟩ := holds.drawn entry mem
  have each : ∀ share ∈ s.termNames.sharesOf entry.1, ∃ part : String × DrawArray α,
      part.1 = share.1 ∧ share.2.take? entry.2 = some part.2 := by
    intro share listed
    have labels : ∀ label ∈ share.2.labels, label.1 ≠ chainDim ∧ label.1 ≠ drawDim := by
      intro label own
      obtain ⟨group, _, labels, rfl⟩ :=
        TermNames.exists_group_of_label normal.areApart mem listed own
      exact free _ labels
    rw [name] at listed
    obtain ⟨part, taken⟩ := (normal.isShared kept).1.exists_take? drawn listed labels
    exact ⟨(share.1, part), rfl, taken⟩
  exact exists_forall₂ each

/-- The parts of the variables hold their shares. -/
theorem holds_parts (holds : DrawsKept s d chains draws) (normal : IsNormal a s)
    {parts : List (List (String × DrawArray α))} (are : AreParts s.termNames d parts) :
    List.Forall₂ (fun piece entry => entry.1 = piece.name ∧
      piece.share.Holds chains draws piece.source entry.2)
      (s.termNames.pieces d) parts.flatten := by
  rw [TermNames.pieces, ← List.flatMap_id]
  refine List.rel_flatMap (forall₂_and_mem are) fun entry own ⟨mem, takes⟩ => ?_
  obtain ⟨v, shape, name, drawn, kept⟩ := holds.drawn entry mem
  rw [List.forall₂_map_left_iff]
  refine (forall₂_and_mem takes).imp fun share part ⟨listed, same, taken⟩ => ⟨same, ?_⟩
  rw [name] at listed
  exact (normal.isShared kept).1.holds drawn listed taken

/-- The dimensions of a share are some of those of its variable, or that of its labels. -/
theorem of_mem_dims {array part : DrawArray α} {name : String} {shape : List Nat}
    (drawn : array.IsDrawn name chains draws shape) {share : TermNames.Share}
    (held : share.Holds chains draws array part) {dim : String × Nat} (mem : dim ∈ part.dims) :
    dim ∈ array.dims ∨ ∃ label ∈ share.labels, dim = (label.1, label.2.length) := by
  have chain : (chainDim, chains) ∈ array.dims := by
    rw [drawn.dims]
    exact List.mem_cons_self
  have draw : (drawDim, draws) ∈ array.dims := by
    rw [drawn.dims]
    exact List.mem_cons_of_mem _ List.mem_cons_self
  cases share with
  | whole =>
    obtain rfl : part = array := held
    exact .inl mem
  | element positions =>
    rw [held.dims, List.mem_pair] at mem
    rcases mem with rfl | rfl
    · exact .inl chain
    · exact .inl draw
  | labelled factor levels =>
    rw [held.1, List.mem_cons, List.mem_pair] at mem
    rcases mem with rfl | rfl | rfl
    · exact .inl chain
    · exact .inl draw
    · exact .inr ⟨_, List.mem_singleton_self _, rfl⟩

/-- The labels of a dataset are the levels of groups of its labelled dimensions. -/
theorem of_mem_labels (holds : DrawsKept s d chains draws) (normal : IsNormal a s)
    {label : String × List String}
    (mem : label ∈ Entries.putAll d.labels (s.termNames.labelsOf d)) :
    s.termNames.Labels d label.1 ∧
      ∃ group ∈ s.terms.groups, label = (group.factor, group.levels) := by
  refine ⟨(TermNames.mem_keys_labels normal.areApart).mp (List.mem_map_of_mem mem), ?_⟩
  rw [holds.unlabelled] at mem
  obtain ⟨group, there, _, _, _, same⟩ :=
    (TermNames.mem_labelsOf normal.areApart).mp (Entries.mem_of_mem_putAll mem)
  exact ⟨group, there, same⟩

/-- A dimension of the collected parts is one of the draws, or that of a label. -/
theorem of_mem_dimensions (holds : DrawsKept s d chains draws) (normal : IsNormal a s)
    {parts : List (List (String × DrawArray α))} (are : AreParts s.termNames d parts)
    {dim : String × Nat}
    (mem : dim ∈ (collected (Entries.putAll d.labels (s.termNames.labelsOf d)) parts).dimensions) :
    (∃ entry ∈ d.arrays, dim ∈ entry.2.dims) ∨
      ∃ group ∈ s.terms.groups, s.termNames.Labels d group.factor ∧
        dim = (group.factor, group.levels.length) := by
  rcases List.mem_append.mp mem with own | label
  · obtain ⟨⟨name, part⟩, inside, own⟩ := List.mem_flatMap.mp own
    obtain ⟨entry, there, share, listed, taken⟩ := are.exists_share (TermNames.mem_collected inside)
    obtain ⟨v, shape, same, drawn, kept⟩ := holds.drawn entry there
    have held := (normal.isShared kept).1.holds drawn (same ▸ listed) taken
    refine (of_mem_dims drawn held own).imp (fun inside => ⟨entry, there, inside⟩) ?_
    rintro ⟨label, labels, rfl⟩
    obtain ⟨group, inside, labelled, rfl⟩ :=
      TermNames.exists_group_of_label normal.areApart there listed labels
    exact ⟨group, inside, labelled, rfl⟩
  · obtain ⟨⟨name, levels⟩, inside, rfl⟩ := List.mem_map.mp label
    obtain ⟨labels, group, there, same⟩ := holds.of_mem_labels normal inside
    obtain ⟨rfl, rfl⟩ := Prod.mk.inj same
    exact .inr ⟨group, there, labels, rfl⟩

/-- Renaming returns unless a labelled dimension has the name of a dimension of the draws. -/
theorem exists_rename (holds : DrawsKept s d chains draws) (normal : IsNormal a s)
    (free : ∀ name, s.termNames.Labels d name → ∀ entry ∈ d.arrays,
      name ∉ entry.2.dims.map Prod.fst) : ∃ r, s.termNames.rename d = .ok r := by
  have sample : ∀ name, s.termNames.Labels d name → name ≠ chainDim ∧ name ≠ drawDim := by
    intro name labels
    have none : name ∉ d.labels.map Prod.fst := by simp [holds.unlabelled]
    obtain ⟨group, _, _, k, _, present⟩ := labels.resolve_left none
    obtain ⟨entry, mem, _⟩ := List.mem_map.mp present
    obtain ⟨v, shape, _, drawn, _⟩ := holds.drawn entry mem
    have away := free name labels entry mem
    rw [drawn.dims, drawnDims, List.map_cons, List.map_cons, List.mem_cons, List.mem_cons, not_or,
      not_or] at away
    exact ⟨away.1, away.2.1⟩
  obtain ⟨parts, are⟩ := holds.exists_areParts normal sample
  refine ⟨_, TermNames.rename_eq_ok normal.areApart holds.distinct (holds.hasDimensions normal) are
    (Dataset.hasConsistentSizes_iff.mpr fun one left two right same => ?_)⟩
  rcases holds.of_mem_dimensions normal are left with
    ⟨entry, mem, own⟩ | ⟨group, mem, labels, rfl⟩ <;>
  rcases holds.of_mem_dimensions normal are right with
    ⟨entry', mem', own'⟩ | ⟨group', mem', labels', rfl⟩
  · exact holds.size_eq mem mem' own own' same
  · obtain ⟨name, count⟩ := one
    obtain rfl : name = group'.factor := same
    exact absurd (List.mem_map_of_mem own) (free _ labels' entry mem)
  · obtain ⟨name, count⟩ := two
    obtain rfl : group.factor = name := same
    exact absurd (List.mem_map_of_mem own') (free _ labels entry' mem')
  · exact congrArg List.length (normal.levels_eq mem' mem same)

/-- All draws are kept exactly if no two new names are the same and none is that of a labelled
dimension. -/
theorem keepsAll_iff (holds : DrawsKept s d chains draws) (normal : IsNormal a s)
    (done : s.termNames.rename d = .ok r) :
    s.termNames.KeepsAll d r chains draws ↔ (s.termNames.newNames d).Nodup ∧
      ∀ name ∈ s.termNames.newNames d, ¬s.termNames.Labels d name := by
  obtain ⟨parts, are, rfl, _⟩ := TermNames.rename_spec holds.distinct done
  constructor
  · intro all
    refine ⟨all.names ▸ all.distinct, fun name mem labels => ?_⟩
    rw [← all.names] at mem
    obtain ⟨array, found⟩ := Entries.exists_lookup_iff.mpr mem
    rw [TermNames.lookup_collected,
      if_pos ((TermNames.mem_keys_labels normal.areApart).mpr labels)] at found
    cases found
  · rintro ⟨distinct, free⟩
    rw [← are.names] at distinct free
    have collected := TermNames.collected_of_nodup distinct fun name mem labels =>
      free name mem ((TermNames.mem_keys_labels normal.areApart).mp labels)
    rw [collected]
    exact ⟨distinct, holds.holds_parts normal are⟩

/-- What becomes of a variable of the draws. -/
theorem exists_isShared (holds : DrawsKept s d chains draws) (normal : IsNormal a s) {name : String}
    (mem : name ∈ d.names) :
    ∃ v shape, name = v.name ∧ IsShared s v shape (s.termNames.sharesOf v.name) := by
  obtain ⟨entry, inside, rfl⟩ := List.mem_map.mp mem
  obtain ⟨v, shape, same, _, kept⟩ := holds.drawn entry inside
  exact ⟨v, shape, same, (normal.isShared kept).1⟩

/-- A new name starts with a reserved word. -/
theorem firstWord_of_mem_newNames (holds : DrawsKept s d chains draws) (normal : IsNormal a s)
    {name : String} (mem : name ∈ s.termNames.newNames d) :
    Variable.firstWord name ∈ reservedWords := by
  rw [TermNames.newNames, List.map_flatMap] at mem
  obtain ⟨source, inside, own⟩ := List.mem_flatMap.mp mem
  obtain ⟨v, shape, rfl, shared⟩ := holds.exists_isShared normal inside
  obtain ⟨_, named⟩ := shared.isNewName own
  exact named.firstWord_mem

/-- The name of a dimension of the draws starts with a reserved word. -/
theorem firstWord_of_mem_dims (holds : DrawsKept s d chains draws) {name : String}
    {entry : String × DrawArray α} (mem : entry ∈ d.arrays)
    (named : name ∈ entry.2.dims.map Prod.fst) : Variable.firstWord name ∈ reservedWords := by
  obtain ⟨v, shape, _, drawn, kept⟩ := holds.drawn entry mem
  obtain ⟨dim, inside, rfl⟩ := List.mem_map.mp named
  rw [drawn.dims] at inside
  rcases of_mem_drawnDims inside with rfl | rfl | ⟨k, count, _, rfl⟩
  · show Variable.firstWord chainDim ∈ _
    decide
  · show Variable.firstWord drawDim ∈ _
    decide
  · have split : dimName v.name k = v.name ++ "_" ++ ("dim_" ++ toString k) := by
      rw [dimName, show "_dim_" = "_" ++ "dim_" from rfl]
      simp only [String.append_assoc]
    show Variable.firstWord (dimName v.name k) ∈ _
    rw [split, Variable.firstWord_joined]
    exact kept.firstWord_mem

/-- A labelled dimension does not start with a reserved word if no names can be taken for others. -/
theorem firstWord_of_labels (holds : DrawsKept s d chains draws) (clear : IsClear s) {name : String}
    (labels : s.termNames.Labels d name) : Variable.firstWord name ∉ reservedWords := by
  have none : name ∉ d.labels.map Prod.fst := by simp [holds.unlabelled]
  obtain ⟨group, mem, rfl, _⟩ := labels.resolve_left none
  exact (clear.factors group mem).2

/-- New names are distinct if no names can be taken for others. -/
theorem nodup_newNames (holds : DrawsKept s d chains draws) (normal : IsNormal a s)
    (clear : IsClear s) : (s.termNames.newNames d).Nodup := by
  rw [TermNames.newNames, List.map_flatMap, List.nodup_flatMap]
  constructor
  · intro name mem
    obtain ⟨v, shape, rfl, shared⟩ := holds.exists_isShared normal mem
    exact shared.nodup normal clear
  · refine holds.distinct.pairwise_of_forall_ne fun name mem name' mem' differ new one two => ?_
    obtain ⟨v, shape, rfl, shared⟩ := holds.exists_isShared normal mem
    obtain ⟨v', shape', rfl, shared'⟩ := holds.exists_isShared normal mem'
    obtain ⟨_, first⟩ := shared.isNewName one
    obtain ⟨_, second⟩ := shared'.isNewName two
    exact differ (congrArg Variable.name (first.eq normal clear second rfl))

/-- All draws are kept if no names can be taken for others. -/
theorem exists_keepsAll (holds : DrawsKept s d chains draws) (normal : IsNormal a s)
    (clear : IsClear s) :
    ∃ r, s.termNames.rename d = .ok r ∧ s.termNames.KeepsAll d r chains draws := by
  obtain ⟨r, done⟩ := holds.exists_rename normal fun name labels entry mem named =>
    holds.firstWord_of_labels clear labels (holds.firstWord_of_mem_dims mem named)
  refine ⟨r, done, (holds.keepsAll_iff normal done).mpr
    ⟨holds.nodup_newNames normal clear, fun name mem labels => ?_⟩⟩
  exact holds.firstWord_of_labels clear labels (holds.firstWord_of_mem_newNames normal mem)

end DrawsKept

end Kept

/-- In every normalized specification, each variable that a fit keeps becomes what is listed, all
of its elements among it. Renaming the draws of such variables returns if no labelled grouping
factor has the name of a dimension; what it returns holds all of them exactly if no two new names
are the same and none is that of a labelled factor; and all of this is so if no names can be taken
for others. -/
theorem rename_complete {a : ModelArguments} {s : Specification}
    (accepted : (normalize a).outcome = .ok s) :
    (s.fragments.data = [] → ∃ data, BuildData.ofSpecification s = .ok data) ∧
    ∀ data, BuildData.ofSpecification s = .ok data →
      (∀ v type, (v, type) ∈ s.kept → ∃ shape, type.shape? data = some shape ∧
        IsShared s v shape (s.termNames.sharesOf v.name)) ∧
      ∀ (α : Type) (d : Dataset α) (chains draws : Nat), HoldsKept s data d chains draws →
        ((∀ name, s.termNames.Labels d name → ∀ entry ∈ d.arrays,
            name ∉ entry.2.dims.map Prod.fst) → ∃ r, s.termNames.rename d = .ok r) ∧
        (∀ r, s.termNames.rename d = .ok r →
          (s.termNames.KeepsAll d r chains draws ↔ (s.termNames.newNames d).Nodup ∧
            ∀ name ∈ s.termNames.newNames d, ¬s.termNames.Labels d name)) ∧
        (IsClear s → ∃ r, s.termNames.rename d = .ok r ∧
          s.termNames.KeepsAll d r chains draws) := by
  have normal := normalize_spec accepted
  refine ⟨fun none => ?_, fun data done => ⟨fun v type kept => ?_, ?_⟩⟩
  · obtain ⟨columns, design⟩ := normal.design
    obtain ⟨values, _, made, _⟩ := BuildData.generated_spec normal design
    refine ⟨BuildData.ofValues values, ?_⟩
    rw [BuildData.ofSpecification, made, none]
    rfl
  · obtain ⟨shape, sized, listed⟩ := normal.hasKeptShape done kept
    exact ⟨shape, sized, (normal.isShared listed).1⟩
  · intro α d chains draws given
    have holds := given.drawsKept normal done
    exact ⟨holds.exists_rename normal, fun r renamed => holds.keepsAll_iff normal renamed,
      holds.exists_keepsAll normal⟩

/-- A small model with a slope that varies with a factor. -/
def factored : ModelArguments where
  formula := "y ~ x + (1 + x | g)"
  data := .table ⟨3, [("y", sampleOutcome), ("x", samplePredictor), ("g", sampleFactor)]⟩

/-- Two draws of it from one chain. -/
def factoredDraws : Dataset Nat where
  arrays := [("b", ⟨drawnDims "b" 1 2 [1], #[0, 1]⟩),
    ("sigma", ⟨drawnDims "sigma" 1 2 [], #[10, 11]⟩),
    ("sd_1", ⟨drawnDims "sd_1" 1 2 [2], #[20, 21, 22, 23]⟩),
    ("r_1_1", ⟨drawnDims "r_1_1" 1 2 [2], #[30, 31, 32, 33]⟩),
    ("r_1_2", ⟨drawnDims "r_1_2" 1 2 [2], #[40, 41, 42, 43]⟩),
    ("b_Intercept", ⟨drawnDims "b_Intercept" 1 2 [], #[50, 51]⟩),
    ("Cor_1", ⟨drawnDims "Cor_1" 1 2 [2, 2], #[1, 60, 60, 1, 1, 61, 61, 1]⟩)]

/-- Its names cannot be taken for others, and renaming keeps all of its draws. -/
theorem factored_complete : ∃ s data r, (normalize factored).outcome = .ok s ∧
    BuildData.ofSpecification s = .ok data ∧ HoldsKept s data factoredDraws 1 2 ∧
      s.termNames.rename factoredDraws = .ok r ∧ s.termNames.KeepsAll factoredDraws r 1 2 := by
  obtain ⟨s, accepted⟩ := exists_of_isOk (x := (normalize factored).outcome) (by decide +kernel)
  have computed : (match (normalize factored).outcome with
      | .ok s => decide (IsClear s) &&
        match BuildData.ofSpecification s with
        | .ok data => decide (HoldsKept s data factoredDraws 1 2)
        | .error _ => false
      | .error _ => false) = true := by
    decide +kernel
  rw [accepted, Bool.and_eq_true] at computed
  obtain ⟨clear, kept⟩ := computed
  split at kept
  · rename_i data done
    have holds := of_decide_eq_true kept
    obtain ⟨r, renamed, all⟩ := (((rename_complete accepted).2 data done).2 Nat factoredDraws 1 2
      holds).2.2 (of_decide_eq_true clear)
    exact ⟨s, data, r, accepted, done, holds, renamed, all⟩
  · cases kept

/-- A model whose grouping factor is called like a parameter of the response. -/
def overshadowed : ModelArguments where
  formula := "y ~ 1 + (1 | sigma)"
  data := .table ⟨3, [("y", sampleOutcome), ("sigma", sampleFactor)]⟩

/-- Two draws of it from one chain. -/
def overshadowedDraws : Dataset Nat where
  arrays := [("sigma", ⟨drawnDims "sigma" 1 2 [], #[10, 11]⟩),
    ("sd_1", ⟨drawnDims "sd_1" 1 2 [1], #[20, 21]⟩),
    ("r_1_1", ⟨drawnDims "r_1_1" 1 2 [2], #[30, 31, 32, 33]⟩),
    ("b_Intercept", ⟨drawnDims "b_Intercept" 1 2 [], #[40, 41]⟩)]

/-- The parameter is lost, although it keeps its name and all new names are distinct. -/
theorem sigma_displaced : ∃ s data r, (normalize overshadowed).outcome = .ok s ∧
    BuildData.ofSpecification s = .ok data ∧ HoldsKept s data overshadowedDraws 1 2 ∧
      s.kept.map (fun own => own.1.name) = overshadowedDraws.names ∧
      (s.termNames.newNames overshadowedDraws).Nodup ∧
      s.termNames.rename overshadowedDraws = .ok r ∧ r.arrays.lookup "sigma" = none ∧
      ¬s.termNames.KeepsAll overshadowedDraws r 1 2 := by
  obtain ⟨s, accepted⟩ := exists_of_isOk (x := (normalize overshadowed).outcome) (by decide +kernel)
  have computed : (match (normalize overshadowed).outcome with
      | .ok s => match BuildData.ofSpecification s, s.termNames.rename overshadowedDraws with
        | .ok data, .ok r => decide (HoldsKept s data overshadowedDraws 1 2 ∧
          s.kept.map (fun own => own.1.name) = overshadowedDraws.names ∧
          (s.termNames.newNames overshadowedDraws).Nodup ∧
          "sigma" ∈ s.termNames.newNames overshadowedDraws ∧ r.arrays.lookup "sigma" = none)
        | _, _ => false
      | .error _ => false) = true := by
    decide +kernel
  rw [accepted] at computed
  dsimp only at computed
  split at computed
  · rename_i data r done renamed
    obtain ⟨holds, kept, distinct, named, lost⟩ := of_decide_eq_true computed
    refine ⟨s, data, r, accepted, done, holds, kept, distinct, renamed, lost, fun all => ?_⟩
    obtain ⟨part, found⟩ := Entries.exists_lookup_iff.mpr (all.names ▸ named)
    rw [lost] at found
    cases found
  · cases computed

end Specification

end Multilevel
