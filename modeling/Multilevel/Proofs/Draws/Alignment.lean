import Multilevel.Proofs.Draws.Element
import Multilevel.Proofs.Draws.Rename
import Multilevel.Proofs.Program.Labels
import Multilevel.Proofs.Program.Names

/-!
# Names and numbers stay aligned

The draws of a variable have a dimension of chains, one of draws, and one for each dimension of
the variable. The element of such an array at a position has one value per chain and draw, and the
labels of a factor leave all values where they are.

The names of the coefficients are found when the terms are built, the design columns when the data
are generated, and the draws are named after sampling. All three agree on which number belongs to
which coefficient and level (`Specification.aligned`), but for one defect of the naming: a new
variable under the name of a labelled grouping factor is lost.
-/
namespace Multilevel

variable {α : Type}

/-- The name of a dimension of a variable. -/
def dimName (name : String) (k : Nat) : String := name ++ "_dim_" ++ toString k

/-- The dimensions of the draws of a variable. -/
def drawnDims (name : String) (chains draws : Nat) (shape : List Nat) : Dims :=
  (chainDim, chains) :: (drawDim, draws) ::
    shape.zipIdx.map fun (count, k) => (dimName name k, count)

/-- There is an underscore in the name of a dimension of a variable. -/
theorem mem_dimName (name : String) (k : Nat) : '_' ∈ (dimName name k).toList := by
  simp [dimName]

/-- A dimension of a variable is neither that of the chains nor that of the draws. -/
theorem dimName_ne (name : String) (k : Nat) :
    dimName name k ≠ chainDim ∧ dimName name k ≠ drawDim := by
  constructor
  all_goals
    intro same
    have mem := same ▸ mem_dimName name k
    revert mem
    decide

/-- The dimensions besides those of chains and draws are those of the variable. -/
theorem extra_drawnDims (name : String) (chains draws : Nat) (shape : List Nat) :
    Dims.extra (drawnDims name chains draws shape) =
      shape.zipIdx.map fun (count, k) => (dimName name k, count) := by
  have own : (shape.zipIdx.map fun (count, k) => (dimName name k, count)).filter
      (fun dim => dim.1 != chainDim && dim.1 != drawDim) =
        shape.zipIdx.map fun (count, k) => (dimName name k, count) := by
    rw [List.filter_eq_self]
    intro dim mem
    obtain ⟨⟨count, k⟩, _, rfl⟩ := List.mem_map.mp mem
    simp [dimName_ne name k]
  rw [Dims.extra, drawnDims, List.filter_cons_of_neg (by simp), List.filter_cons_of_neg (by simp),
    own]

namespace DrawArray

/-- Whether an array holds the draws of a variable of a shape. -/
structure IsDrawn (a : DrawArray α) (name : String) (chains draws : Nat) (shape : List Nat) :
    Prop where
  /-- The dimensions are those of chains and draws and those of the shape. -/
  dims : a.dims = drawnDims name chains draws shape
  /-- There is a value at each place. -/
  full : a.IsFull

/-- Whether an array holds, for each chain and draw, the element of another one at positions along
the extra dimensions. -/
structure IsElement (part a : DrawArray α) (chains draws : Nat) (positions : List Nat) :
    Prop where
  /-- There is a value for each chain and draw. -/
  dims : part.dims = [(chainDim, chains), (drawDim, draws)]
  /-- It is the one at the positions. -/
  value : ∀ chain < chains, ∀ draw < draws, ∃ x, part.element? [chain, draw] = some x ∧
    a.element? (chain :: draw :: positions) = some x

variable {a part : DrawArray α} {name : String} {chains draws : Nat}

open TermNames (Share)

/-- A position along the dimensions of chains and draws. -/
theorem inside_sample {chain draw : Nat} (left : chain < chains) (right : draw < draws) :
    Dims.Inside [(chainDim, chains), (drawDim, draws)] [chain, draw] :=
  .cons left (.cons right .nil)

/-- An array without extra dimensions holds its own elements. -/
theorem isElement_of_dims (full : part.IsFull)
    (dims : part.dims = [(chainDim, chains), (drawDim, draws)]) {positions : List Nat}
    (same : ∀ chain < chains, ∀ draw < draws,
      part.element? [chain, draw] = a.element? (chain :: draw :: positions)) :
    part.IsElement a chains draws positions where
  dims := dims
  value chain left draw right := by
    obtain ⟨x, here⟩ := full.exists_element? (dims ▸ inside_sample left right)
    exact ⟨x, here, same chain left draw right ▸ here⟩

/-- The element of a vector at a position that it has. -/
theorem exists_take?_vector {count k : Nat} (drawn : a.IsDrawn name chains draws [count])
    (inside : k < count) : ∃ part, (Share.element [k]).take? a = some part ∧ part.IsFull ∧
      part.IsElement a chains draws [k] := by
  have dims : a.dims = [(chainDim, chains), (drawDim, draws)] ++ [(dimName name 0, count)] :=
    drawn.dims
  obtain ⟨part, taken, kept, full, same⟩ := exists_pick? drawn.full dims
    (by simpa using dimName_ne name 0) inside
  refine ⟨part, ?_, full, isElement_of_dims full kept fun chain left draw right => ?_⟩
  · rw [Share.take?, drawn.dims, extra_drawnDims]
    simpa using taken
  · exact same _ _ (inside_sample left right) .nil

/-- The element of a matrix at positions that it has. -/
theorem exists_take?_matrix {rows columns j k : Nat}
    (drawn : a.IsDrawn name chains draws [rows, columns]) (left : j < rows) (right : k < columns) :
    ∃ part, (Share.element [j, k]).take? a = some part ∧ part.IsFull ∧
      part.IsElement a chains draws [j, k] := by
  have dims : a.dims = [(chainDim, chains), (drawDim, draws)] ++
      (dimName name 0, rows) :: [(dimName name 1, columns)] := drawn.dims
  obtain ⟨between, first, kept, full, same⟩ := exists_pick? drawn.full dims
    (by simpa using dimName_ne name 0) left
  obtain ⟨part, second, kept', full', same'⟩ := exists_pick? full kept
    (by simpa using dimName_ne name 1) right
  refine ⟨part, ?_, full', isElement_of_dims full' kept' fun chain one draw two => ?_⟩
  · rw [Share.take?, drawn.dims, extra_drawnDims]
    simpa [first] using second
  · have sample := inside_sample one two
    have element := same' [chain, draw] [] sample .nil
    exact element.trans (same [chain, draw] [k] sample (.cons right .nil))

/-- The draws of a vector with the levels of a factor along its dimension. -/
theorem take?_labelled {factor : String} {levels : List String} {count : Nat}
    (drawn : a.IsDrawn name chains draws [count]) :
    (Share.labelled factor levels).take? a =
      if ((chainDim, chains) :: (drawDim, draws) :: [(factor, count)]).lookup factor =
          some levels.length then
        some ⟨[(chainDim, chains), (drawDim, draws), (factor, count)], a.values⟩
      else none := by
  have renamed : a.renameDim (dimName name 0) factor =
      ⟨[(chainDim, chains), (drawDim, draws), (factor, count)], a.values⟩ := by
    have chain := (dimName_ne name 0).1.symm
    have draw := (dimName_ne name 0).2.symm
    rw [renameDim, drawn.dims]
    simp [drawnDims, chain, draw]
  rw [Share.take?, drawn.dims, extra_drawnDims]
  simp [renamed]

end DrawArray

end Multilevel

namespace Multilevel

/-- What the names of the draws of a model refer to. -/
def Specification.termNames (s : Specification) : TermNames := ⟨s.terms.population, s.terms.groups⟩

namespace TermNames

variable {α : Type}

/-- The new names of the variables of a dataset, in order. -/
def newNames (terms : TermNames) (d : Dataset α) : List String :=
  (d.names.flatMap terms.sharesOf).map Prod.fst

/-- Whether a name is that of a labelled dimension: of one that has labels already, or of a grouping
factor whose levels label single coefficients of a dataset. -/
def Labels (terms : TermNames) (d : Dataset α) (name : String) : Prop :=
  name ∈ d.labels.map Prod.fst ∨ ∃ group ∈ terms.groups, group.factor = name ∧
    ∃ k < group.size, (Variable.effect group.id (k + 1)).name ∈ d.names

/-- Whether the only new variable of a name is as said; it is lost if the name is that of a labelled
dimension. -/
def Keeps (terms : TermNames) (d r : Dataset α) (name : String) (said : DrawArray α → Prop) :
    Prop :=
  (terms.newNames d).count name = 1 →
    (¬terms.Labels d name → ∃ part, r.arrays.lookup name = some part ∧ said part) ∧
      (terms.Labels d name → r.arrays.lookup name = none)

/-- Whether a renamed dataset has the draws of another one under the names of the coefficients and
levels that they belong to. -/
structure NamesDraws (terms : TermNames) (d r : Dataset α) (chains draws : Nat) : Prop where
  /-- The shared coefficients are split by their names. -/
  slopes : ∀ a, d.arrays.lookup Variable.slopes.name = some a →
    a.IsDrawn Variable.slopes.name chains draws [terms.population.length] →
    ∀ k (inside : k < terms.population.length),
      terms.Keeps d r ("b_" ++ terms.population[k]) (·.IsElement a chains draws [k])
  /-- The deviations of a group are split by the names of its coefficients. -/
  deviations : ∀ group ∈ terms.groups, ∀ a,
    d.arrays.lookup (Variable.deviations group.id).name = some a →
    a.IsDrawn (Variable.deviations group.id).name chains draws [group.size] →
    ∀ k (inside : k < group.coefficients.length),
      terms.Keeps d r ("sd_" ++ group.factor ++ "__" ++ group.coefficients[k])
        (·.IsElement a chains draws [k])
  /-- The correlations of a group are split by the names of two coefficients. -/
  correlations : ∀ group ∈ terms.groups, ∀ a,
    d.arrays.lookup (Variable.correlations group.id).name = some a →
    a.IsDrawn (Variable.correlations group.id).name chains draws [group.size, group.size] →
    ∀ j k (ordered : j < k) (inside : k < group.coefficients.length),
      terms.Keeps d r
        ("cor_" ++ group.factor ++ "__" ++ group.coefficients[j] ++ "__" ++ group.coefficients[k])
        (·.IsElement a chains draws [j, k])
  /-- The effects of a coefficient have the levels of the group along their dimension. -/
  effects : ∀ group ∈ terms.groups, ∀ k (inside : k < group.coefficients.length), ∀ a,
    d.arrays.lookup (Variable.effect group.id (k + 1)).name = some a →
    a.IsDrawn (Variable.effect group.id (k + 1)).name chains draws [group.levels.length] →
    r.labels.lookup group.factor = some group.levels ∧
      terms.Keeps d r ("r_" ++ group.factor ++ "__" ++ group.coefficients[k]) fun part =>
        part.dims =
            [(chainDim, chains), (drawDim, draws), (group.factor, group.levels.length)] ∧
          ∀ chain < chains, ∀ draw < draws, ∀ level < group.levels.length,
            ∃ x, part.element? [chain, draw, level] = some x ∧
              a.element? [chain, draw, level] = some x

section Schemes

variable {terms : TermNames} {group : Group}

/-- The scheme of the shared coefficients. -/
theorem slopes_mem_schemes (some : terms.population ≠ []) :
    ⟨.slopes, 1, elements (terms.population.map fun name => "b_" ++ name)⟩ ∈ terms.schemes := by
  have occupied : ¬terms.population.isEmpty = true := by simpa using some
  rw [schemes, if_neg occupied]
  exact List.mem_append_left _ List.mem_cons_self

/-- The schemes of a group are among those of all groups. -/
theorem groupSchemes_subset (mem : group ∈ terms.groups) :
    groupSchemes group ⊆ terms.schemes := fun _ own =>
  List.mem_append_right _ (List.mem_flatMap.mpr ⟨group, mem, own⟩)

/-- The scheme of a single coefficient is one of its group. -/
theorem effectScheme_mem {k : Nat} (inside : k < group.coefficients.length) :
    effectScheme group k group.coefficients[k] ∈ groupSchemes group := by
  have listed : (group.coefficients[k], k) ∈ group.coefficients.zipIdx := by
    rw [List.mk_mem_zipIdx_iff_getElem?, List.getElem?_eq_getElem inside]
  have own := List.mem_map_of_mem (f := fun entry => effectScheme group entry.2 entry.1) listed
  exact List.mem_append_left _ (List.mem_append_right _ own)

/-- Only the schemes of single coefficients have labels. -/
theorem of_mem_labels {scheme : Scheme} (mem : scheme ∈ terms.schemes) {share : String × Share}
    (listed : share ∈ scheme.shares) {label : String × List String}
    (labels : label ∈ share.2.labels) :
    ∃ group ∈ terms.groups, ∃ k < group.size, scheme.source = .effect group.id (k + 1) ∧
      label = (group.factor, group.levels) := by
  have free {names : List String} (split : share ∈ elements names) : False := by
    obtain ⟨_, _, rfl⟩ := List.mem_map.mp split
    cases labels
  rcases List.mem_append.mp mem with slopes | own
  · split at slopes
    · cases slopes
    · obtain rfl := List.mem_singleton.mp slopes
      exact (free listed).elim
  obtain ⟨group, there, own⟩ := List.mem_flatMap.mp own
  rw [groupSchemes, List.mem_append, List.mem_append, List.mem_pair, List.mem_singleton] at own
  rcases own with ((rfl | rfl) | effect) | rfl
  · exact (free listed).elim
  · obtain ⟨_, _, rfl⟩ := List.mem_map.mp listed
    cases labels
  · obtain ⟨⟨name, k⟩, inside, rfl⟩ := List.mem_map.mp effect
    obtain rfl := List.mem_singleton.mp listed
    obtain rfl := List.mem_singleton.mp labels
    have below := (List.getElem?_eq_some_iff.mp (List.mk_mem_zipIdx_iff_getElem?.mp inside)).choose
    exact ⟨group, there, k, below, rfl, rfl⟩
  · obtain rfl := List.mem_singleton.mp listed
    cases labels

/-- The scheme of a variable is found under its name. -/
theorem find?_source (apart : AreApart terms) {scheme : Scheme} (mem : scheme ∈ terms.schemes) :
    terms.schemes.find? (fun other => other.source.name = scheme.source.name) = some scheme := by
  cases found : terms.schemes.find? fun other => other.source.name = scheme.source.name with
  | none =>
    have differs := List.find?_eq_none.mp found scheme mem
    simp at differs
  | some other =>
    have same : other.source.name = scheme.source.name := by simpa using List.find?_some found
    rw [List.inj_on_of_nodup_map apart (List.mem_of_find?_eq_some found) mem same]

/-- The shares of the variable of a scheme are those of the scheme. -/
theorem sharesOf_source (apart : AreApart terms) {scheme : Scheme} (mem : scheme ∈ terms.schemes) :
    terms.sharesOf scheme.source.name = scheme.shares := by
  rw [sharesOf, find?_source apart mem]

/-- The labels of a dataset are the levels of the groups some of whose single coefficients it
has. -/
theorem mem_labelsOf (apart : AreApart terms) {d : Dataset α} {label : String × List String} :
    label ∈ terms.labelsOf d ↔ ∃ group ∈ terms.groups, ∃ k < group.size,
      (Variable.effect group.id (k + 1)).name ∈ d.names ∧
        label = (group.factor, group.levels) := by
  simp only [labelsOf, List.mem_flatMap]
  constructor
  · rintro ⟨share, ⟨name, mem, listed⟩, labels⟩
    unfold sharesOf at listed
    split at listed
    · rename_i scheme found
      have named : scheme.source.name = name := by simpa using List.find?_some found
      obtain ⟨group, there, k, below, source, rfl⟩ :=
        of_mem_labels (List.mem_of_find?_eq_some found) listed labels
      exact ⟨group, there, k, below, source ▸ named ▸ mem, rfl⟩
    · obtain rfl := List.mem_singleton.mp listed
      cases labels
  · rintro ⟨group, there, k, below, mem, rfl⟩
    have own := groupSchemes_subset there (effectScheme_mem below)
    have shares : terms.sharesOf (Variable.effect group.id (k + 1)).name =
        (effectScheme group k group.coefficients[k]).shares := sharesOf_source apart own
    refine ⟨("r_" ++ group.factor ++ "__" ++ group.coefficients[k],
      .labelled group.factor group.levels), ⟨_, mem, ?_⟩, List.mem_singleton_self _⟩
    rw [shares]
    exact List.mem_singleton_self _

/-- The names of the labels are those of the labelled dimensions. -/
theorem mem_keys_labels (apart : AreApart terms) {d : Dataset α} {name : String} :
    name ∈ (Entries.putAll d.labels (terms.labelsOf d)).map Prod.fst ↔ terms.Labels d name := by
  have own : name ∈ (terms.labelsOf d).map Prod.fst ↔ ∃ group ∈ terms.groups,
      group.factor = name ∧ ∃ k < group.size,
        (Variable.effect group.id (k + 1)).name ∈ d.names := by
    rw [List.mem_map]
    constructor
    · rintro ⟨label, mem, rfl⟩
      obtain ⟨group, there, k, below, present, rfl⟩ := (mem_labelsOf apart).mp mem
      exact ⟨group, there, rfl, k, below, present⟩
    · rintro ⟨group, there, rfl, k, below, present⟩
      exact ⟨_, (mem_labelsOf apart).mpr ⟨group, there, k, below, present, rfl⟩, rfl⟩
  rw [Entries.mem_keys_putAll, own, Labels]

end Schemes

section Renamed

variable {terms : TermNames} {d r : Dataset α}

/-- The parts of a dataset have the new names. -/
theorem AreParts.names {parts : List (List (String × DrawArray α))}
    (are : AreParts terms d parts) : parts.flatten.map Prod.fst = terms.newNames d := by
  unfold AreParts at are
  rw [newNames, Dataset.names]
  generalize d.arrays = entries at are
  induction are with
  | nil => rfl
  | cons takes _ ih =>
    rw [List.flatten_cons, List.map_append, takes.names, ih, List.map_cons, List.flatMap_cons,
      List.map_append]

/-- What is found under a name that is new once: the part that takes its share. -/
theorem lookup_renamed (apart : AreApart terms) (distinct : d.names.Nodup)
    (done : terms.rename d = .ok r) {source name : String} {a : DrawArray α} {share : Share}
    (found : d.arrays.lookup source = some a) (listed : (name, share) ∈ terms.sharesOf source)
    (once : (terms.newNames d).count name = 1) :
    ∃ part, share.take? a = some part ∧
      (¬terms.Labels d name → r.arrays.lookup name = some part) ∧
      (terms.Labels d name → r.arrays.lookup name = none) := by
  obtain ⟨parts, are, rfl, _⟩ := rename_spec distinct done
  obtain ⟨own, among, takes⟩ := exists_mem_of_forall₂ are (Entries.mem_of_lookup found)
  obtain ⟨⟨new, part⟩, inside, same, taken⟩ := exists_mem_of_forall₂ takes listed
  obtain rfl : name = new := same.symm
  have mem : (name, part) ∈ parts.flatten := List.mem_flatten.mpr ⟨own, among, inside⟩
  rw [← are.names] at once
  refine ⟨part, taken, ?_⟩
  have keys : name ∈ _ ↔ terms.Labels d name := mem_keys_labels apart
  rw [lookup_collected, Entries.lookup_reverse_of_count once mem]
  exact ⟨fun free => if_neg fun labels => free (keys.mp labels),
    fun labels => if_pos (keys.mpr labels)⟩

/-- The labels of a factor are the levels of its groups. -/
theorem lookup_labels (apart : AreApart terms) (distinct : d.names.Nodup)
    (done : terms.rename d = .ok r) {group : Group} (mem : group ∈ terms.groups)
    (same : ∀ other ∈ terms.groups, other.factor = group.factor → other.levels = group.levels)
    {k : Nat} (below : k < group.size)
    (present : (Variable.effect group.id (k + 1)).name ∈ d.names) :
    r.labels.lookup group.factor = some group.levels := by
  obtain ⟨parts, _, rfl, _⟩ := rename_spec distinct done
  show (Entries.putAll d.labels (terms.labelsOf d)).lookup group.factor = _
  rw [Entries.lookup_putAll_append]
  have listed := (mem_labelsOf apart).mpr ⟨group, mem, k, below, present, rfl⟩
  obtain ⟨levels, found⟩ := Entries.exists_lookup_iff.mpr
    (List.mem_map_of_mem (f := Prod.fst) (List.mem_reverse.mpr listed))
  obtain ⟨other, there, _, _, _, equal⟩ :=
    (mem_labelsOf apart).mp (List.mem_reverse.mp (Entries.mem_of_lookup found))
  obtain ⟨factor, rfl⟩ := Prod.mk.inj equal
  rw [found, same other there factor.symm, Option.some_or]

/-- A new name is kept if what takes its share is as said. -/
theorem keeps_of_takes (apart : AreApart terms) (distinct : d.names.Nodup)
    (done : terms.rename d = .ok r) {scheme : Scheme} (mem : scheme ∈ terms.schemes) {name : String}
    {share : Share} (listed : (name, share) ∈ scheme.shares) {a : DrawArray α}
    (found : d.arrays.lookup scheme.source.name = some a) {said : DrawArray α → Prop}
    (takes : ∀ part, share.take? a = some part → said part) : terms.Keeps d r name said := by
  intro once
  obtain ⟨part, taken, kept, lost⟩ := lookup_renamed apart distinct done found
    ((sharesOf_source apart mem).symm ▸ listed) once
  exact ⟨fun free => ⟨part, kept free, takes part taken⟩, lost⟩

/-- An element of a list of names is one of the elements of a vector. -/
theorem mem_elements {names : List String} {k : Nat} (inside : k < names.length) :
    (names[k], .element [k]) ∈ elements names := by
  have listed : (names[k], k) ∈ names.zipIdx := by
    rw [List.mk_mem_zipIdx_iff_getElem?, List.getElem?_eq_getElem inside]
  exact List.mem_map_of_mem (f := fun entry => (entry.1, Share.element [entry.2])) listed

/-- A pair of positions lies above the diagonal exactly if it is listed. -/
theorem mem_upperPairs {size j k : Nat} : (j, k) ∈ upperPairs size ↔ j < k ∧ k < size := by
  simp only [upperPairs, List.mem_flatMap, List.mem_range, List.mem_filterMap]
  constructor
  · rintro ⟨row, _, column, inside, here⟩
    split at here
    · rename_i ordered
      obtain ⟨rfl, rfl⟩ := Prod.mk.inj (Option.some.inj here)
      exact ⟨ordered, inside⟩
    · cases here
  · rintro ⟨ordered, inside⟩
    exact ⟨j, by omega, k, inside, if_pos ordered⟩

/-- The name of the correlation of two coefficients. -/
theorem correlationName_eq {group : Group} {j k : Nat} (left : j < group.coefficients.length)
    (right : k < group.coefficients.length) : correlationName group j k =
      "cor_" ++ group.factor ++ "__" ++ group.coefficients[j] ++ "__" ++ group.coefficients[k] := by
  simp [correlationName, left, right]

/-- An element of a split vector is kept under its name. -/
theorem keeps_element (apart : AreApart terms) (distinct : d.names.Nodup)
    (done : terms.rename d = .ok r) {v : Variable} {names : List String}
    (mem : ⟨v, 1, elements names⟩ ∈ terms.schemes) {a : DrawArray α} {chains draws count : Nat}
    (found : d.arrays.lookup v.name = some a) (drawn : a.IsDrawn v.name chains draws [count])
    {k : Nat} (inside : k < names.length) (below : k < count) :
    terms.Keeps d r names[k] (·.IsElement a chains draws [k]) := by
  refine keeps_of_takes apart distinct done mem (mem_elements inside) found
    fun part taken => ?_
  obtain ⟨own, same, _, element⟩ := DrawArray.exists_take?_vector drawn below
  rw [taken] at same
  exact Option.some.inj same ▸ element

/-- Renaming names the draws by the coefficients and levels that they belong to. -/
theorem rename_namesDraws (apart : AreApart terms) (distinct : d.names.Nodup)
    (levels : ∀ group ∈ terms.groups, ∀ other ∈ terms.groups,
      other.factor = group.factor → other.levels = group.levels)
    (done : terms.rename d = .ok r) (chains draws : Nat) : terms.NamesDraws d r chains draws where
  slopes a found drawn k inside := by
    have some : terms.population ≠ [] := List.ne_nil_of_length_pos (Nat.zero_lt_of_lt inside)
    have kept := keeps_element apart distinct done (slopes_mem_schemes some) found drawn
      (k := k) (by simpa using inside) inside
    rwa [List.getElem_map] at kept
  deviations group mem a found drawn k inside := by
    have scheme := groupSchemes_subset mem List.mem_cons_self
    have kept := keeps_element apart distinct done scheme found drawn (k := k)
      (by simpa using inside) inside
    rwa [List.getElem_map] at kept
  correlations group mem a found drawn j k ordered inside := by
    have scheme := groupSchemes_subset mem (List.mem_cons_of_mem _ List.mem_cons_self)
    have pair : (correlationName group j k, .element [j, k]) ∈ (upperPairs group.size).map
        fun places => (correlationName group places.1 places.2,
          Share.element [places.1, places.2]) :=
      List.mem_map.mpr ⟨(j, k), mem_upperPairs.mpr ⟨ordered, inside⟩, rfl⟩
    have before : j < group.coefficients.length := Nat.lt_trans ordered inside
    rw [← correlationName_eq before inside]
    refine keeps_of_takes apart distinct done scheme pair found fun part taken => ?_
    obtain ⟨own, same, _, element⟩ := DrawArray.exists_take?_matrix drawn before inside
    rw [taken] at same
    exact Option.some.inj same ▸ element
  effects group mem k inside a found drawn := by
    have present : (Variable.effect group.id (k + 1)).name ∈ d.names :=
      List.mem_map_of_mem (Entries.mem_of_lookup found)
    refine ⟨lookup_labels apart distinct done mem (levels group mem) inside present, ?_⟩
    have scheme := groupSchemes_subset mem (effectScheme_mem inside)
    refine keeps_of_takes apart distinct done scheme List.mem_cons_self found
      fun part taken => ?_
    rw [DrawArray.take?_labelled drawn] at taken
    split at taken
    · obtain rfl := Option.some.inj taken
      refine ⟨rfl, fun chain left draw right level below => ?_⟩
      have within : a.dims.Inside [chain, draw, level] := by
        rw [drawn.dims]
        exact .cons left (.cons right (.cons below .nil))
      obtain ⟨x, here⟩ := drawn.full.exists_element? within
      refine ⟨x, ?_, here⟩
      rw [DrawArray.element?, drawn.dims] at here
      exact here
    · cases taken

end Renamed

end TermNames

namespace Specification

variable {a : ModelArguments} {s : Specification}

/-- The variables that the schemes of a group are for. -/
def groupSources (group : Group) : List Variable :=
  (TermNames.groupSchemes group).map TermNames.Scheme.source

/-- They belong to the group. -/
theorem of_mem_groupSources {group : Group} {v : Variable} (mem : v ∈ groupSources group) :
    v = .deviations group.id ∨ v = .correlations group.id ∨ (∃ k, v = .effect group.id k) ∨
      v = .priorDeviations group.id := by
  simp only [groupSources, TermNames.groupSchemes, TermNames.effectScheme, List.map_append,
    List.map_cons, List.map_nil, List.map_map, List.mem_append, List.mem_cons, List.not_mem_nil,
    or_false, List.mem_map] at mem
  rcases mem with ((first | second) | ⟨entry, _, effect⟩) | last
  · exact .inl first
  · exact .inr (.inl second)
  · exact .inr (.inr (.inl ⟨_, effect.symm⟩))
  · exact .inr (.inr (.inr last))

/-- They are distinct. -/
theorem nodup_groupSources (group : Group) : (groupSources group).Nodup := by
  have effects : (group.coefficients.zipIdx.map fun entry =>
      TermNames.effectScheme group entry.2 entry.1).map TermNames.Scheme.source =
        (List.range group.size).map fun k => .effect group.id (k + 1) := by
    have places : group.coefficients.zipIdx.map Prod.snd = List.range group.size := by
      rw [List.zipIdx_map_snd, List.range_eq_range', Group.size]
    rw [← places, List.map_map, List.map_map]
    rfl
  have distinct : ((List.range group.size).map fun k =>
      Variable.effect group.id (k + 1)).Nodup :=
    List.nodup_range.map fun j k same => by simpa using same
  rw [groupSources, TermNames.groupSchemes, List.map_append, List.map_append, effects]
  simp [List.nodup_append, distinct]

/-- No variable of a normalized specification has two schemes. -/
theorem IsNormal.areApart (normal : IsNormal a s) : s.termNames.AreApart := by
  have sources : (s.termNames.schemes.map TermNames.Scheme.source).Nodup := by
    rw [TermNames.schemes, List.map_append, List.map_flatMap, List.nodup_append]
    refine ⟨by split <;> simp, ?_, ?_⟩
    · rw [List.nodup_flatMap]
      refine ⟨fun group _ => nodup_groupSources group, ?_⟩
      have distinct : (s.terms.groups.map Group.id).Nodup := by
        rw [normal.groups.ids]
        exact List.nodup_range'
      refine (List.pairwise_map.mp distinct).imp fun {first second} differs v left right => ?_
      have one := of_mem_groupSources left
      have two := of_mem_groupSources right
      rcases one with rfl | rfl | ⟨k, rfl⟩ | rfl <;> simp [differs] at two
    · rintro v first w second rfl
      obtain ⟨group, _, own⟩ := List.mem_flatMap.mp second
      have slopes : v = .slopes := by
        split at first
        · cases first
        · simpa using first
      subst slopes
      simpa using of_mem_groupSources own
  have names := sources.map Variable.name_injective
  rwa [List.map_map] at names

/-- Groups of one factor have the same levels. -/
theorem IsNormal.levels_eq (normal : IsNormal a s) {first second : Group}
    (left : first ∈ s.terms.groups) (right : second ∈ s.terms.groups)
    (same : second.factor = first.factor) : second.levels = first.levels := by
  obtain ⟨column, here, levels⟩ := (normal.groups.built first left).levels
  obtain ⟨column', there, levels'⟩ := (normal.groups.built second right).levels
  rw [same, here] at there
  obtain rfl := Option.some.inj there
  exact Option.some.inj (levels'.symm.trans levels)

/-- In every normalized specification, the design columns have the names of their coefficients, the
levels of a group those of the rows of the caller's table, and the draws are named accordingly. -/
theorem aligned (accepted : (normalize a).outcome = .ok s) :
    ∃ (raw : Frame) (origin : Fin s.data.rows → Fin raw.rows), a.data.frame = .ok raw ∧
      Cleaning.Cleaned s.formula s.family s.autocorrelation raw s.data origin ∧
      (∀ data, BuildData.ofSpecification s = .ok data → BuildData.HoldsDesign s data ∧
        ∀ group ∈ s.terms.groups, BuildData.HoldsGroup s origin data group) ∧
      (s.fragments.data = [] → ∃ data, BuildData.ofSpecification s = .ok data) ∧
      ∀ (α : Type) (d r : Dataset α) (chains draws : Nat), d.names.Nodup →
        s.termNames.rename d = .ok r → s.termNames.NamesDraws d r chains draws := by
  have normal := normalize_spec accepted
  obtain ⟨raw, origin, given, clean⟩ := normal.clean
  obtain ⟨columns, design⟩ := normal.design
  obtain ⟨values, _, made, provided, _⟩ := BuildData.generated_spec normal design
  refine ⟨raw, origin, given, clean, fun data done => ?_, fun none => ?_,
    fun α d r chains draws distinct done => ?_⟩
  · rw [BuildData.ofSpecification, made] at done
    have kept {name : String} {datum : Datum}
        (found : (BuildData.ofValues values).lookup name = some datum) :
        data.lookup name = some datum :=
      BuildData.lookup_addLoose (mapError_eq_ok.mp done) found
    exact ⟨BuildData.holdsDesign normal design provided kept,
      fun group mem => BuildData.holdsGroup normal clean provided kept mem⟩
  · refine ⟨BuildData.ofValues values, ?_⟩
    rw [BuildData.ofSpecification, made, none]
    rfl
  · exact TermNames.rename_namesDraws normal.areApart distinct
      (fun group mem other there same => normal.levels_eq mem there same) done chains draws

/-- The names and numbers of the small model are aligned. -/
theorem sample_aligned : ∃ s, (normalize sample).outcome = .ok s ∧
    ∃ (raw : Frame) (origin : Fin s.data.rows → Fin raw.rows), sample.data.frame = .ok raw ∧
      (∀ data, BuildData.ofSpecification s = .ok data → BuildData.HoldsDesign s data ∧
        ∀ group ∈ s.terms.groups, BuildData.HoldsGroup s origin data group) ∧
      ∀ (α : Type) (d r : Dataset α) (chains draws : Nat), d.names.Nodup →
        s.termNames.rename d = .ok r → s.termNames.NamesDraws d r chains draws := by
  obtain ⟨s, accepted⟩ := exists_normalize_sample
  obtain ⟨raw, origin, given, _, holds, _, names⟩ := aligned accepted
  exact ⟨s, accepted, raw, origin, given, holds, names⟩

/-- An outcome of three observations. -/
def sampleOutcome : Column 3 := .int #[2, 3, 5].toVector

/-- A predictor of three observations. -/
def samplePredictor : Column 3 := .int #[0, 1, 4].toVector

/-- A factor of two levels that both occur in three observations. -/
def sampleFactor : Column 3 := .factor ["u", "v"] #[some 0, some 1, some 0].toVector

/-- A model whose grouping factor has the new name of a slope. -/
def displacing : ModelArguments where
  formula := "y ~ x + (1 | b_x)"
  data := .table ⟨3, [("y", sampleOutcome), ("x", samplePredictor), ("b_x", sampleFactor)]⟩

/-- Two draws of the model from one chain. -/
def displacingDraws : Dataset Int where
  arrays := [("b", ⟨drawnDims "b" 1 2 [1], #[0, 1]⟩),
    ("sigma", ⟨drawnDims "sigma" 1 2 [], #[10, 11]⟩),
    ("sd_1", ⟨drawnDims "sd_1" 1 2 [1], #[20, 21]⟩),
    ("r_1_1", ⟨drawnDims "r_1_1" 1 2 [2], #[30, 31, 32, 33]⟩),
    ("b_Intercept", ⟨drawnDims "b_Intercept" 1 2 [], #[40, 41]⟩)]

/-- Its slope is lost, although all new names are distinct. -/
theorem slope_displaced : ∃ s r, (normalize displacing).outcome = .ok s ∧
    s.terms.population = ["x"] ∧ (s.termNames.newNames displacingDraws).Nodup ∧
      s.termNames.rename displacingDraws = .ok r ∧ r.arrays.lookup "b_x" = none := by
  obtain ⟨s, accepted⟩ := exists_of_isOk (x := (normalize displacing).outcome) (by decide +kernel)
  have computed : (match (normalize displacing).outcome with
      | .ok s => decide (s.terms.population = ["x"]) &&
        decide (s.termNames.newNames displacingDraws).Nodup &&
          match s.termNames.rename displacingDraws with
          | .ok r => (r.arrays.lookup "b_x").isNone
          | .error _ => false
      | .error _ => false) = true := by
    decide +kernel
  rw [accepted, Bool.and_eq_true, Bool.and_eq_true] at computed
  obtain ⟨⟨population, distinct⟩, lost⟩ := computed
  split at lost
  · rename_i r renamed
    exact ⟨s, r, accepted, of_decide_eq_true population, of_decide_eq_true distinct, renamed,
      Option.isNone_iff_eq_none.mp lost⟩
  · cases lost

end Specification

end Multilevel
