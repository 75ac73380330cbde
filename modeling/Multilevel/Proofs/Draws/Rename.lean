import Multilevel.Draws.Rename
import Multilevel.Program.Variable
import Multilevel.Proofs.Entries
import Multilevel.Proofs.Outcome

/-!
# What renaming makes of draws

Every variable that is renamed has a scheme: the names of the new variables and the share of the
old one that each of them takes. A dataset that renaming returns holds the shares of its variables
in their order; of several shares under one name it keeps the last, and it drops those under the
name of a labelled dimension (`TermNames.rename_spec`).
-/
namespace Multilevel

variable {α : Type}

namespace TermNames

/-- What a new variable takes from the one that it comes from. -/
inductive Share where
  /-- The variable as it is. -/
  | whole
  /-- The element at positions along the extra dimensions. -/
  | element (positions : List Nat)
  /-- The variable with the levels of a factor along its extra dimension. -/
  | labelled (factor : String) (levels : List String)
  deriving Repr, DecidableEq

namespace Share

/-- The new variable. -/
def take? : Share → DrawArray α → Option (DrawArray α)
  | whole, a => some a
  | element positions, a =>
    ((Dims.extra a.dims).zip positions).foldlM (fun part (dim, k) => part.pick? dim.1 k) a
  | labelled factor levels, a => do
    let dim ← (Dims.extra a.dims).head?
    let renamed := a.renameDim dim.1 factor
    if renamed.dims.lookup factor = some levels.length then some renamed else none

/-- The labels that come with the new variable. -/
def labels : Share → List (String × List String)
  | labelled factor levels => [(factor, levels)]
  | _ => []

end Share

/-- New variables under their names. -/
abbrev Shares := List (String × Share)

/-- The elements of a vector under names. -/
def elements (names : List String) : Shares :=
  names.zipIdx.map fun (name, k) => (name, .element [k])

/-- What becomes of a variable. -/
structure Scheme where
  /-- The variable. -/
  source : Variable
  /-- The number of its extra dimensions. -/
  dimension : Nat
  /-- The new variables. -/
  shares : Shares

/-- The name of a correlation. -/
def correlationName (group : Group) (j k : Nat) : String :=
  "cor_" ++ group.factor ++ "__" ++ group.coefficients.getD j "" ++ "__" ++
    group.coefficients.getD k ""

/-- The scheme of a single coefficient of a group. -/
def effectScheme (group : Group) (k : Nat) (coefficient : String) : Scheme :=
  ⟨.effect group.id (k + 1), 1,
    [("r_" ++ group.factor ++ "__" ++ coefficient, .labelled group.factor group.levels)]⟩

/-- The schemes of a group. -/
def groupSchemes (group : Group) : List Scheme :=
  [⟨.deviations group.id, 1,
      elements (group.coefficients.map fun name => "sd_" ++ group.factor ++ "__" ++ name)⟩,
    ⟨.correlations group.id, 2,
      (upperPairs group.size).map fun (j, k) => (correlationName group j k, .element [j, k])⟩] ++
    (group.coefficients.zipIdx.map fun (name, k) => effectScheme group k name) ++
    [⟨.priorDeviations group.id, 0, [("prior_sd_" ++ group.factor, .whole)]⟩]

/-- The schemes of all variables that are renamed. -/
def schemes (terms : TermNames) : List Scheme :=
  (if terms.population.isEmpty then []
    else [⟨.slopes, 1, elements (terms.population.map fun name => "b_" ++ name)⟩]) ++
    terms.groups.flatMap groupSchemes

/-- What becomes of the variable of a name. -/
def sharesOf (terms : TermNames) (name : String) : Shares :=
  match terms.schemes.find? fun scheme => scheme.source.name = name with
  | some scheme => scheme.shares
  | none => [(name, .whole)]

/-- New variables that take their shares from an array. -/
def Takes (a : DrawArray α) (shares : Shares) (parts : List (String × DrawArray α)) : Prop :=
  List.Forall₂ (fun share part => part.1 = share.1 ∧ share.2.take? a = some part.2) shares parts

/-- The new variables have the names of the shares. -/
theorem Takes.names {a : DrawArray α} {shares : Shares} {parts : List (String × DrawArray α)}
    (takes : Takes a shares parts) : parts.map Prod.fst = shares.map Prod.fst := by
  induction takes with
  | nil => rfl
  | cons step _ ih => rw [List.map_cons, List.map_cons, step.1, ih]

/-- A rule that does what shares say, at least with arrays of enough dimensions. -/
structure Follows (rule : Rule α) (dimension : Nat) (shares : Shares) : Prop where
  /-- What the rule makes of an array takes the shares from it. -/
  takes : ∀ {a made}, rule a = .ok made → ∃ parts, Takes a shares parts ∧
    made = ⟨Entries.putAll [] parts, shares.flatMap fun share => share.2.labels⟩
  /-- The rule makes something of an array that the shares can be taken from. -/
  accepts : ∀ {a parts}, (Dims.extra a.dims).length = dimension → Takes a shares parts →
    ∃ made, rule a = .ok made

/-- An array at a position that exists. -/
theorem pick_eq_ok {a picked : DrawArray α} {name : String} {k : Nat} :
    a.pick name k = .ok picked ↔ a.pick? name k = some picked := by
  unfold DrawArray.pick
  cases a.pick? name k <;> simp

/-- Elements come without labels. -/
theorem labels_of_elements {shares : Shares}
    (each : ∀ share ∈ shares, ∃ positions, share.2 = .element positions) :
    (shares.flatMap fun share => share.2.labels) = [] := by
  rw [List.flatMap_eq_nil_iff]
  intro share mem
  obtain ⟨positions, element⟩ := each share mem
  rw [element]
  rfl

/-- Splitting a vector takes its elements. -/
theorem split_follows (names : List String) :
    Follows (α := α) (fun a => split a names) 1 (elements names) where
  takes {a made} done := by
    simp only [split, bind_eq_ok, pure_eq_ok, mapM_eq_ok] at done
    obtain ⟨dim, first, parts, each, rfl⟩ := done
    refine ⟨parts, List.forall₂_map_left_iff.mpr (each.imp ?_), ?_⟩
    · rintro ⟨name, k⟩ part ⟨picked, here, rfl⟩
      unfold firstExtra at first
      split at first
      · rename_i rest extra
        obtain rfl := Except.ok.inj first
        refine ⟨rfl, ?_⟩
        rw [Share.take?, extra]
        simpa using pick_eq_ok.mp here
      · cases first
    · rw [labels_of_elements]
      simp only [elements, List.mem_map]
      rintro share ⟨⟨name, k⟩, _, rfl⟩
      exact ⟨[k], rfl⟩
  accepts {a parts} one takes := by
    obtain ⟨⟨dim, count⟩, extra⟩ := List.length_eq_one_iff.mp one
    have first : firstExtra a = .ok dim := by rw [firstExtra, extra]
    have each := List.forall₂_map_left_iff.mp takes
    refine ⟨⟨Entries.putAll [] parts, []⟩, ?_⟩
    simp only [split, bind_eq_ok, pure_eq_ok, mapM_eq_ok]
    refine ⟨dim, first, parts, each.imp ?_, rfl⟩
    rintro ⟨name, k⟩ ⟨new, part⟩ ⟨rfl, taken⟩
    rw [Share.take?, extra] at taken
    exact ⟨part, pick_eq_ok.mpr (by simpa using taken), rfl⟩

/-- Splitting a matrix of correlations takes its elements above the diagonal. -/
theorem splitPairs_follows (group : Group) : Follows (α := α) (splitPairs group) 2
    ((upperPairs group.size).map fun (j, k) => (correlationName group j k, .element [j, k])) where
  takes {a made} done := by
    unfold splitPairs at done
    split at done
    · rename_i row rows column columns extra
      simp only [bind_eq_ok, pure_eq_ok, mapM_eq_ok] at done
      obtain ⟨parts, each, rfl⟩ := done
      refine ⟨parts, List.forall₂_map_left_iff.mpr (each.imp ?_), ?_⟩
      · rintro ⟨j, k⟩ part ⟨between, first, picked, second, rfl⟩
        refine ⟨rfl, ?_⟩
        rw [Share.take?, extra]
        simpa [pick_eq_ok.mp first] using pick_eq_ok.mp second
      · rw [labels_of_elements]
        simp only [List.mem_map]
        rintro share ⟨⟨j, k⟩, _, rfl⟩
        exact ⟨[j, k], rfl⟩
    · cases done
  accepts {a parts} two takes := by
    obtain ⟨⟨row, rows⟩, ⟨column, columns⟩, extra⟩ := List.length_eq_two.mp two
    have each := List.forall₂_map_left_iff.mp takes
    refine ⟨⟨Entries.putAll [] parts, []⟩, ?_⟩
    simp only [splitPairs, extra, bind_eq_ok, pure_eq_ok, mapM_eq_ok]
    refine ⟨parts, each.imp ?_, rfl⟩
    rintro ⟨j, k⟩ ⟨new, part⟩ ⟨rfl, taken⟩
    rw [Share.take?, extra] at taken
    simp only [List.zip_cons_cons, List.zip_nil_right, List.foldlM_cons, List.foldlM_nil,
      Option.bind_eq_bind, Option.bind_eq_some_iff] at taken
    obtain ⟨between, first, picked, second, same⟩ := taken
    obtain rfl := Option.some.inj same
    exact ⟨between, pick_eq_ok.mpr first, _, pick_eq_ok.mpr second, rfl⟩

/-- What labelling makes of the effects of a group. -/
theorem labelled_eq_ok {group : Group} {coefficient : String} {a : DrawArray α} {made : Renamed α} :
    labelled group coefficient a = .ok made ↔
      ∃ renamed, (Share.labelled group.factor group.levels).take? a = some renamed ∧
        made = ⟨[("r_" ++ group.factor ++ "__" ++ coefficient, renamed)],
          [(group.factor, group.levels)]⟩ := by
  unfold labelled firstExtra Share.take?
  cases extra : Dims.extra a.dims with
  | nil => simp [extra, bind, Except.bind]
  | cons dim rest =>
    by_cases sized : (a.renameDim dim.1 group.factor).dims.lookup group.factor =
        some group.levels.length
    · simp only [extra, sized, bind, Except.bind, pure, Except.pure, ne_eq, not_true, if_false,
        List.head?_cons, Option.bind_some, if_true, Except.ok.injEq, Option.some.injEq,
        exists_eq_left']
      exact eq_comm
    · simp [extra, sized, bind, Except.bind]

/-- Labelling the effects of a group takes them with the levels. -/
theorem labelled_follows (group : Group) (coefficient : String) :
    Follows (α := α) (labelled group coefficient) 1
      [("r_" ++ group.factor ++ "__" ++ coefficient, .labelled group.factor group.levels)] where
  takes done := by
    obtain ⟨renamed, taken, rfl⟩ := labelled_eq_ok.mp done
    exact ⟨[(_, renamed)], .cons ⟨rfl, taken⟩ .nil, rfl⟩
  accepts _ takes := by
    cases takes with
    | cons first _ => exact ⟨_, labelled_eq_ok.mpr ⟨_, first.2, rfl⟩⟩

/-- The draws from the prior of the deviations are kept as they are. -/
theorem prior_follows (name : String) :
    Follows (α := α) (fun a => .ok ⟨[(name, a)], []⟩) 0 [(name, .whole)] where
  takes {a made} done := by
    obtain rfl := Except.ok.inj done
    exact ⟨[(name, a)], .cons ⟨rfl, rfl⟩ .nil, rfl⟩
  accepts _ _ := ⟨_, rfl⟩

/-- A rule as a scheme says, under the name of its variable. -/
def Matches (rule : String × Rule α) (scheme : Scheme) : Prop :=
  rule.1 = scheme.source.name ∧ Follows rule.2 scheme.dimension scheme.shares

/-- The rules of a group do what its schemes say. -/
theorem groupRules_matches (group : Group) :
    List.Forall₂ (Matches (α := α)) (groupRules group) (groupSchemes group) := by
  have effects : List.Forall₂ (Matches (α := α))
      (group.coefficients.zipIdx.map fun (name, k) =>
        (s!"r_{group.id}_{k + 1}", labelled group name))
      (group.coefficients.zipIdx.map fun (name, k) => effectScheme group k name) := by
    rw [List.forall₂_map_left_iff, List.forall₂_map_right_iff, List.forall₂_same]
    exact fun entry _ => ⟨rfl, labelled_follows group entry.1⟩
  refine List.rel_append (List.rel_append ?_ effects) ?_
  · exact .cons ⟨rfl, split_follows _⟩ (.cons ⟨rfl, splitPairs_follows group⟩ .nil)
  · exact .cons ⟨rfl, prior_follows ("prior_sd_" ++ group.factor)⟩ .nil

/-- The rules do what the schemes say. -/
theorem rules_matches (terms : TermNames) :
    List.Forall₂ (Matches (α := α)) (rules terms) (schemes terms) := by
  refine List.rel_append ?_ ?_
  · split
    · exact .nil
    · exact .cons ⟨rfl, split_follows _⟩ .nil
  · exact List.rel_flatMap (List.forall₂_same.mpr fun _ _ => rfl) fun group _ same =>
      same ▸ groupRules_matches group

/-- The rule of a name and its scheme are found together. -/
theorem lookup_of_matches {rules : List (String × Rule α)} {schemes : List Scheme}
    (each : List.Forall₂ Matches rules schemes) (name : String) :
    (rules.lookup name = none ∧ schemes.find? (fun scheme => scheme.source.name = name) = none) ∨
    ∃ rule scheme, rules.lookup name = some rule ∧
      schemes.find? (fun scheme => scheme.source.name = name) = some scheme ∧
      Follows rule scheme.dimension scheme.shares := by
  induction each with
  | nil => exact .inl ⟨rfl, rfl⟩
  | @cons entry scheme _ _ here _ ih =>
    obtain ⟨own, rule⟩ := entry
    obtain ⟨rfl, follows⟩ := here
    rw [List.lookup_cons, List.find?_cons]
    by_cases same : scheme.source.name = name
    · subst same
      exact .inr ⟨rule, scheme, by simp, by simp, follows⟩
    · have differs : (name == scheme.source.name) = false := by
        simpa using fun equal => same equal.symm
      simpa [differs, same] using ih

/-- What is found under the name of a variable among the replacements: what its rule makes of it. -/
theorem lookup_replaced {d : Dataset α} {rules : List (String × Rule α)}
    {all : List (List (String × Renamed α))}
    (each : List.Forall₂ (fun entry own => applyRule d entry.1 entry.2 = .ok own) rules all)
    {name : String} {a : DrawArray α} (found : d.arrays.lookup name = some a) :
    (rules.lookup name = none → all.flatten.lookup name = none) ∧
    ∀ rule, rules.lookup name = some rule →
      ∃ made, rule a = .ok made ∧ all.flatten.lookup name = some made := by
  induction each with
  | nil => exact ⟨fun _ => rfl, fun _ none => by cases none⟩
  | @cons entry own _ rest here _ ih =>
    obtain ⟨other, rule⟩ := entry
    rw [List.lookup_cons, List.flatten_cons, List.lookup_append]
    by_cases same : name = other
    · subst same
      simp only [applyRule, found, bind_eq_ok, pure_eq_ok] at here
      obtain ⟨made, done, rfl⟩ := here
      refine ⟨fun none => ?_, fun own there => ⟨made, ?_, by simp⟩⟩
      · simp at none
      · rw [beq_self_eq_true] at there
        obtain rfl := Option.some.inj there
        exact done
    · have differs : (name == other) = false := by simpa using same
      have none : own.lookup name = none := by
        unfold applyRule at here
        split at here
        · simp only [bind_eq_ok, pure_eq_ok] at here
          obtain ⟨made, _, rfl⟩ := here
          simp [List.lookup_cons, differs]
        · obtain rfl := Except.ok.inj here
          rfl
      simpa [differs, none] using ih

/-- What a variable becomes: its shares, and their labels. -/
def Becomes (terms : TermNames) (entry : String × DrawArray α) (made : Renamed α) : Prop :=
  ∃ parts, Takes entry.2 (terms.sharesOf entry.1) parts ∧
    made = ⟨Entries.putAll [] parts,
      (terms.sharesOf entry.1).flatMap fun share => share.2.labels⟩

/-- Every variable of a dataset becomes what the replacements say of it. -/
theorem becomes_of_replacements {terms : TermNames} {d : Dataset α}
    {replaced : List (String × Renamed α)} (distinct : d.names.Nodup)
    (done : terms.replacements d = .ok replaced) :
    List.Forall₂ (Becomes terms) d.arrays
      (d.arrays.map fun entry => (replaced.lookup entry.1).getD ⟨[entry], []⟩) := by
  simp only [replacements, bind_eq_ok, pure_eq_ok, mapM_eq_ok] at done
  obtain ⟨all, each, rfl⟩ := done
  rw [List.forall₂_map_right_iff, List.forall₂_same]
  rintro ⟨name, a⟩ mem
  have found := Entries.lookup_of_mem distinct mem
  obtain ⟨plain, renamed⟩ := lookup_replaced each found
  rcases lookup_of_matches (rules_matches (α := α) terms) name with
    ⟨free, none⟩ | ⟨rule, scheme, ruled, here, follows⟩
  · rw [plain free, Becomes, sharesOf, none]
    exact ⟨[(name, a)], .cons ⟨rfl, rfl⟩ .nil, rfl⟩
  · obtain ⟨made, took, there⟩ := renamed rule ruled
    obtain ⟨parts, takes, rfl⟩ := follows.takes took
    rw [there, Becomes, sharesOf, here]
    exact ⟨parts, takes, rfl⟩

/-- The labels that come with the shares of the variables of a dataset. -/
def labelsOf (terms : TermNames) (d : Dataset α) : List (String × List String) :=
  (d.names.flatMap terms.sharesOf).flatMap fun share => share.2.labels

/-- The parts that the variables of a dataset become. -/
def AreParts (terms : TermNames) (d : Dataset α) (parts : List (List (String × DrawArray α))) :
    Prop :=
  List.Forall₂ (fun entry own => Takes entry.2 (terms.sharesOf entry.1) own) d.arrays parts

/-- The dataset of the last parts under each name, less those under the name of a label. -/
def collected (labels : List (String × List String)) (parts : List (List (String × DrawArray α))) :
    Dataset α :=
  ⟨Entries.without (Entries.putAll [] (parts.flatMap (Entries.putAll []))) (labels.map Prod.fst),
    labels⟩

/-- What the variables become is collected from their parts. -/
theorem exists_parts {terms : TermNames} {entries : List (String × DrawArray α)}
    {made : List (Renamed α)} (becomes : List.Forall₂ (Becomes terms) entries made) :
    ∃ parts, List.Forall₂ (fun entry own => Takes entry.2 (terms.sharesOf entry.1) own)
        entries parts ∧
      made.flatMap Renamed.arrays = parts.flatMap (Entries.putAll []) ∧
      made.flatMap Renamed.labels =
        ((entries.map Prod.fst).flatMap terms.sharesOf).flatMap fun share => share.2.labels := by
  induction becomes with
  | nil => exact ⟨[], .nil, rfl, rfl⟩
  | cons first _ ih =>
    obtain ⟨own, takes, rfl⟩ := first
    obtain ⟨parts, others, arrays, labels⟩ := ih
    refine ⟨own :: parts, .cons takes others, ?_, ?_⟩
    · rw [List.flatMap_cons, List.flatMap_cons, arrays]
    · rw [List.flatMap_cons, List.map_cons, List.flatMap_cons, List.flatMap_append, labels]

/-- What renaming does once all rules have been applied. -/
theorem rename_of_replacements {terms : TermNames} {d : Dataset α}
    {replaced : List (String × Renamed α)} (distinct : d.names.Nodup)
    (done : terms.replacements d = .ok replaced) :
    ∃ parts, AreParts terms d parts ∧
      let kept := collected (Entries.putAll d.labels (terms.labelsOf d)) parts
      terms.rename d = if kept.hasConsistentSizes then .ok kept else .error .misaligned := by
  obtain ⟨parts, are, arrays, labels⟩ := exists_parts (becomes_of_replacements distinct done)
  refine ⟨parts, are, ?_⟩
  rw [rename, done, collected, labelsOf, ← arrays, Dataset.names, ← labels]
  rfl

/-- A dataset that renaming returns holds the parts that the variables become. -/
theorem rename_spec {terms : TermNames} {d r : Dataset α} (distinct : d.names.Nodup)
    (done : terms.rename d = .ok r) :
    ∃ parts, AreParts terms d parts ∧
      r = collected (Entries.putAll d.labels (terms.labelsOf d)) parts ∧
      r.hasConsistentSizes = true := by
  have renamed := done
  rw [rename, bind_eq_ok] at done
  obtain ⟨replaced, made, _⟩ := done
  obtain ⟨parts, are, all⟩ := rename_of_replacements distinct made
  rw [renamed] at all
  dsimp only at all
  split at all
  · rename_i consistent
    obtain rfl := Except.ok.inj all
    exact ⟨parts, are, rfl, consistent⟩
  · cases all

/-- Whether an array has the dimensions that the scheme of its variable asks for. -/
def HasDimensions (terms : TermNames) (entry : String × DrawArray α) : Prop :=
  ∀ scheme, terms.schemes.find? (fun scheme => scheme.source.name = entry.1) = some scheme →
    (Dims.extra entry.2.dims).length = scheme.dimension

/-- Whether no variable has two schemes. -/
def AreApart (terms : TermNames) : Prop :=
  (terms.schemes.map fun scheme => scheme.source.name).Nodup

/-- Parts of the same variables are the same. -/
theorem AreParts.unique {terms : TermNames} {d : Dataset α}
    {first second : List (List (String × DrawArray α))} (left : AreParts terms d first)
    (right : AreParts terms d second) : first = second := by
  refine List.right_unique_forall₂' (fun entry own other one two => ?_) left right
  refine List.right_unique_forall₂' (fun share part part' here there => ?_) one two
  have same : some part.2 = some part'.2 := here.2.symm.trans there.2
  exact Prod.ext (here.1.trans there.1.symm) (Option.some.inj same)

/-- All rules can be applied to arrays of their dimensions that have the parts. -/
theorem exists_replacements {terms : TermNames} {d : Dataset α} (apart : AreApart terms)
    (shaped : ∀ entry ∈ d.arrays, HasDimensions terms entry)
    {parts : List (List (String × DrawArray α))} (are : AreParts terms d parts) :
    ∃ replaced, terms.replacements d = .ok replaced := by
  have names : (rules (α := α) terms).map Prod.fst =
      terms.schemes.map fun scheme => scheme.source.name := by
    rw [← List.forall₂_eq_eq_eq, List.forall₂_map_left_iff, List.forall₂_map_right_iff]
    exact (rules_matches terms).imp fun _ _ same => same.1
  have each : ∀ entry ∈ rules (α := α) terms, ∃ made, applyRule d entry.1 entry.2 = .ok made := by
    rintro ⟨name, rule⟩ mem
    have ruled := Entries.lookup_of_mem (names ▸ apart) mem
    cases found : d.arrays.lookup name with
    | none => exact ⟨[], by rw [applyRule, found]⟩
    | some a =>
      rcases lookup_of_matches (rules_matches (α := α) terms) name with
        ⟨free, _⟩ | ⟨own, scheme, same, here, follows⟩
      · rw [ruled] at free
        cases free
      rw [ruled] at same
      obtain rfl := Option.some.inj same
      have inside := Entries.mem_of_lookup found
      obtain ⟨own, _, takes⟩ := exists_mem_of_forall₂ are inside
      simp only [sharesOf, here] at takes
      obtain ⟨made, done⟩ := follows.accepts (shaped _ inside scheme here) takes
      refine ⟨[(name, made)], ?_⟩
      simp only [applyRule, found, done]
      rfl
  obtain ⟨all, done⟩ := exists_mapM_eq_ok each
  refine ⟨all.flatten, ?_⟩
  rw [replacements, done]
  rfl

/-- Renaming returns the collected parts if these agree on the sizes of dimensions. -/
theorem rename_eq_ok {terms : TermNames} {d : Dataset α} (apart : AreApart terms)
    (distinct : d.names.Nodup) (shaped : ∀ entry ∈ d.arrays, HasDimensions terms entry)
    {parts : List (List (String × DrawArray α))} (are : AreParts terms d parts)
    (consistent :
      (collected (Entries.putAll d.labels (terms.labelsOf d)) parts).hasConsistentSizes = true) :
    terms.rename d = .ok (collected (Entries.putAll d.labels (terms.labelsOf d)) parts) := by
  obtain ⟨replaced, done⟩ := exists_replacements apart shaped are
  obtain ⟨others, also, renamed⟩ := rename_of_replacements distinct done
  obtain rfl := are.unique also
  rw [renamed]
  exact if_pos consistent

/-- What is found under a name in the collected dataset: the last part of that name, unless there is
a label of it. -/
theorem lookup_collected (labels : List (String × List String))
    (parts : List (List (String × DrawArray α))) (name : String) :
    (collected labels parts).arrays.lookup name =
      if name ∈ labels.map Prod.fst then none else parts.flatten.reverse.lookup name := by
  rw [collected, Entries.lookup_without, Entries.lookup_putAll_flatMap]

/-- Parts under distinct names, none of which is that of a label, are collected as they are. -/
theorem collected_of_nodup {labels : List (String × List String)}
    {parts : List (List (String × DrawArray α))} (distinct : (parts.flatten.map Prod.fst).Nodup)
    (free : ∀ name ∈ parts.flatten.map Prod.fst, name ∉ labels.map Prod.fst) :
    collected labels parts = ⟨parts.flatten, labels⟩ := by
  have kept : Entries.without parts.flatten (labels.map Prod.fst) = parts.flatten := by
    rw [Entries.without, List.filter_eq_self]
    intro part mem
    simpa using free part.1 (List.mem_map_of_mem mem)
  rw [collected, Entries.putAll_flatMap_of_nodup distinct, kept]

end TermNames

end Multilevel
