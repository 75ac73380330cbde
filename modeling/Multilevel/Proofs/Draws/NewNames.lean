import Multilevel.Proofs.Draws.Alignment
import Multilevel.Proofs.Program.Kept

/-!
# New names of draws

Renaming splits a variable of coefficients into all of its elements and one of correlations into all
elements above the diagonal, labels the effects of a coefficient, and keeps any other variable whole
(`Specification.IsShared`). Each share of a variable of the declared shape can be taken, and holds
the numbers it stands for (`TermNames.Share.Holds`).

The new names of a model can clash: nothing keeps a coefficient from being called like the
intercept, two terms of one factor share the name of their draws from a prior, and underscores in
the names of factors and coefficients run into those between them. Without these three, all new
names are distinct, and each tells by its words what it belongs to (`Specification.IsClear`).
-/
namespace Multilevel

/-- Whether a variable is renamed. -/
def Variable.isRenamed : Variable → Bool
  | slopes | deviations _ | correlations _ | effect _ _ | priorDeviations _ => true
  | _ => false

namespace TermNames

variable {α : Type}

/-- Only the listed variables have schemes. -/
theorem isRenamed_of_mem {terms : TermNames} {scheme : Scheme} (mem : scheme ∈ terms.schemes) :
    scheme.source.isRenamed = true := by
  rcases List.mem_append.mp mem with slopes | own
  · split at slopes
    · cases slopes
    · rw [List.mem_singleton.mp slopes]
      rfl
  · obtain ⟨group, _, own⟩ := List.mem_flatMap.mp own
    have listed := List.mem_map_of_mem (f := Scheme.source) own
    rcases Specification.of_mem_groupSources listed with same | same | ⟨k, same⟩ | same
    all_goals rw [same]; rfl

/-- There is no scheme for another variable. -/
theorem find?_other (terms : TermNames) {v : Variable} (other : v.isRenamed = false) :
    terms.schemes.find? (fun scheme => scheme.source.name = v.name) = none := by
  rw [List.find?_eq_none]
  intro scheme mem same
  have equal : scheme.source = v := Variable.name_injective (by simpa using same)
  have renamed := isRenamed_of_mem mem
  rw [equal, other] at renamed
  cases renamed

/-- A share of a split vector is one of its elements. -/
theorem of_mem_elements {names : List String} {share : String × Share}
    (mem : share ∈ elements names) :
    ∃ k, ∃ inside : k < names.length, share = (names[k], .element [k]) := by
  obtain ⟨⟨name, k⟩, listed, rfl⟩ := List.mem_map.mp mem
  obtain ⟨inside, rfl⟩ :=
    List.getElem?_eq_some_iff.mp (List.mk_mem_zipIdx_iff_getElem?.mp listed)
  exact ⟨k, inside, rfl⟩

/-- The names of a split vector are those given. -/
theorem names_elements (names : List String) : (elements names).map Prod.fst = names := by
  rw [elements, List.map_map]
  exact List.zipIdx_map_fst 0 names

/-- Whether an array is a share of the draws of a variable. -/
def Share.Holds (chains draws : Nat) (a part : DrawArray α) : Share → Prop
  | whole => part = a
  | element positions => part.IsElement a chains draws positions
  | labelled factor levels =>
    part.dims = [(chainDim, chains), (drawDim, draws), (factor, levels.length)] ∧
      part.values = a.values

end TermNames

namespace Specification

open TermNames (Share Shares elements upperPairs correlationName)

/-- What becomes of a variable of a shape. -/
inductive IsShared (s : Specification) : Variable → List Nat → Shares → Prop
  /-- The shared coefficients are split into all of their elements. -/
  | slopes : IsShared s .slopes [s.terms.population.length]
      (elements (s.terms.population.map fun name => "b_" ++ name))
  /-- So are the standard deviations of a group. -/
  | deviations (group : Group) (mem : group ∈ s.terms.groups) :
    IsShared s (.deviations group.id) [group.size]
      (elements (group.coefficients.map fun name => "sd_" ++ group.factor ++ "__" ++ name))
  /-- Correlations are split into all elements above the diagonal. -/
  | correlations (group : Group) (mem : group ∈ s.terms.groups) :
    IsShared s (.correlations group.id) [group.size, group.size]
      ((upperPairs group.size).map fun (j, k) => (correlationName group j k, .element [j, k]))
  /-- The effects of a coefficient are labelled by the levels. -/
  | effect (group : Group) (mem : group ∈ s.terms.groups) (k : Nat)
      (inside : k < group.coefficients.length) :
    IsShared s (.effect group.id (k + 1)) [group.levels.length]
      [("r_" ++ group.factor ++ "__" ++ group.coefficients[k],
        .labelled group.factor group.levels)]
  /-- A draw from the prior of the standard deviations is named after the factor. -/
  | priorDeviations (group : Group) (mem : group ∈ s.terms.groups) (drawn : s.samplePrior = .yes) :
    IsShared s (.priorDeviations group.id) [] [("prior_sd_" ++ group.factor, .whole)]
  /-- Any other variable keeps its name. -/
  | own (v : Variable) (shape : List Nat) (kept : IsKept s v shape) (other : v.isRenamed = false) :
    IsShared s v shape [(v.name, .whole)]

variable {a : ModelArguments} {s : Specification} {v : Variable} {shape : List Nat}

/-- A kept variable becomes what is listed, by a scheme for its number of dimensions if it has
one. -/
theorem IsNormal.isShared (normal : IsNormal a s) (kept : IsKept s v shape) :
    IsShared s v shape (s.termNames.sharesOf v.name) ∧
      ∀ scheme, s.termNames.schemes.find? (fun scheme => scheme.source.name = v.name) =
        some scheme → scheme.dimension = shape.length := by
  have found {scheme : TermNames.Scheme} (mem : scheme ∈ s.termNames.schemes)
      (shared : IsShared s scheme.source shape scheme.shares)
      (sized : scheme.dimension = shape.length) :
      IsShared s scheme.source shape (s.termNames.sharesOf scheme.source.name) ∧
        ∀ other, s.termNames.schemes.find? (fun other => other.source.name = scheme.source.name) =
          some other → other.dimension = shape.length := by
    refine ⟨TermNames.sharesOf_source normal.areApart mem ▸ shared, fun other here => ?_⟩
    rw [TermNames.find?_source normal.areApart mem] at here
    exact Option.some.inj here ▸ sized
  have own (other : v.isRenamed = false) :
      IsShared s v shape (s.termNames.sharesOf v.name) ∧
        ∀ scheme, s.termNames.schemes.find? (fun scheme => scheme.source.name = v.name) =
          some scheme → scheme.dimension = shape.length := by
    have none := TermNames.find?_other s.termNames other
    rw [TermNames.sharesOf, none]
    exact ⟨.own v shape kept other, fun _ here => by cases here⟩
  cases kept with
  | slopes some => exact found (TermNames.slopes_mem_schemes some) .slopes rfl
  | deviations group mem =>
    exact found (TermNames.groupSchemes_subset mem List.mem_cons_self) (.deviations group mem) rfl
  | correlations group mem =>
    exact found (TermNames.groupSchemes_subset mem (List.mem_cons_of_mem _ List.mem_cons_self))
      (.correlations group mem) rfl
  | effect group mem k inside =>
    exact found (TermNames.groupSchemes_subset mem (TermNames.effectScheme_mem inside))
      (.effect group mem k inside) rfl
  | priorDeviations group mem drawn =>
    exact found (TermNames.groupSchemes_subset mem
      (List.mem_append_right _ (List.mem_singleton_self _))) (.priorDeviations group mem drawn) rfl
  | auxiliary | feedback | standardized | correlationFactor | intercept | priorSlopes |
    priorIntercept | priorAuxiliary | priorFeedback => exact own rfl

section Draws

variable {α : Type} {array part : DrawArray α} {chains draws : Nat} {shares : Shares}
  {share : String × Share}

/-- Each share of a variable of its shape can be taken, unless a level would lie along the chains or
draws. -/
theorem IsShared.exists_take? (shared : IsShared s v shape shares)
    (drawn : array.IsDrawn v.name chains draws shape) (mem : share ∈ shares)
    (free : ∀ label ∈ share.2.labels, label.1 ≠ chainDim ∧ label.1 ≠ drawDim) :
    ∃ part, share.2.take? array = some part := by
  cases shared with
  | slopes | deviations =>
    obtain ⟨k, inside, rfl⟩ := TermNames.of_mem_elements mem
    obtain ⟨part, taken, _⟩ :=
      DrawArray.exists_take?_vector drawn (by simpa [Group.size] using inside)
    exact ⟨part, taken⟩
  | correlations group =>
    obtain ⟨⟨j, k⟩, pair, rfl⟩ := List.mem_map.mp mem
    obtain ⟨ordered, inside⟩ := TermNames.mem_upperPairs.mp pair
    obtain ⟨part, taken, _⟩ :=
      DrawArray.exists_take?_matrix drawn (Nat.lt_trans ordered inside) inside
    exact ⟨part, taken⟩
  | effect group =>
    obtain rfl := List.mem_singleton.mp mem
    obtain ⟨chain, draw⟩ := free _ (List.mem_singleton_self _)
    refine ⟨_, (DrawArray.take?_labelled drawn).trans (if_pos ?_)⟩
    simp only [List.lookup_cons, beq_eq_false_iff_ne.mpr chain, beq_eq_false_iff_ne.mpr draw,
      beq_self_eq_true]
  | priorDeviations | own =>
    obtain rfl := List.mem_singleton.mp mem
    exact ⟨array, rfl⟩

/-- What is taken as a share of a variable holds it. -/
theorem IsShared.holds (shared : IsShared s v shape shares)
    (drawn : array.IsDrawn v.name chains draws shape) (mem : share ∈ shares)
    (taken : share.2.take? array = some part) : share.2.Holds chains draws array part := by
  cases shared with
  | slopes | deviations =>
    obtain ⟨k, inside, rfl⟩ := TermNames.of_mem_elements mem
    obtain ⟨own, same, _, element⟩ :=
      DrawArray.exists_take?_vector drawn (by simpa [Group.size] using inside)
    rw [taken] at same
    exact Option.some.inj same ▸ element
  | correlations group =>
    obtain ⟨⟨j, k⟩, pair, rfl⟩ := List.mem_map.mp mem
    obtain ⟨ordered, inside⟩ := TermNames.mem_upperPairs.mp pair
    obtain ⟨own, same, _, element⟩ :=
      DrawArray.exists_take?_matrix drawn (Nat.lt_trans ordered inside) inside
    rw [taken] at same
    exact Option.some.inj same ▸ element
  | effect group =>
    obtain rfl := List.mem_singleton.mp mem
    rw [DrawArray.take?_labelled drawn] at taken
    split at taken
    · obtain rfl := Option.some.inj taken
      exact ⟨rfl, rfl⟩
    · cases taken
  | priorDeviations | own =>
    obtain rfl := List.mem_singleton.mp mem
    exact (Option.some.inj taken).symm

end Draws

end Specification

namespace Variable

/-- A name is given by its words. -/
theorem words_injective : Function.Injective words := fun first second same => by
  rw [← intercalate_words first, same, intercalate_words]

/-- There is at least one word. -/
theorem words_ne_nil (name : String) : words name ≠ [] := by
  simp [words, Text.splitOn_ne_nil]

/-- The word before the first underscore. -/
def firstWord (name : String) : String := (words name).headD ""

/-- The first word of two names with an underscore between them is that of the first. -/
theorem firstWord_joined (first rest : String) :
    firstWord (first ++ "_" ++ rest) = firstWord first := by
  rw [firstWord, words_joined, firstWord]
  cases pieces : words first with
  | nil => exact absurd pieces (words_ne_nil first)
  | cons word more => rfl

/-- The words of two names with two underscores between them. -/
theorem words_doubled (first rest : String) :
    words (first ++ "__" ++ rest) = words first ++ "" :: words rest := by
  have split : first ++ "__" ++ rest = first ++ "_" ++ ("" ++ "_" ++ rest) := by
    rw [show "__" = "_" ++ "_" from rfl, String.empty_append]
    simp only [String.append_assoc]
  rw [split, words_joined, words_joined]
  rfl

/-- Whether a name has no underscore at its ends and no two in a row. -/
def IsPlain (name : String) : Prop := "" ∉ words name

instance (name : String) : Decidable (IsPlain name) := inferInstanceAs (Decidable (¬_ ∈ words name))

/-- Behind words without an empty one, the first empty word is where they end. -/
theorem append_empty_inj {first first' rest rest' : List String} (free : "" ∉ first)
    (free' : "" ∉ first') (same : first ++ "" :: rest = first' ++ "" :: rest') :
    first = first' ∧ rest = rest' := by
  induction first generalizing first' with
  | nil =>
    cases first' with
    | nil => exact ⟨rfl, (List.cons.inj same).2⟩
    | cons word more => exact absurd ((List.cons.inj same).1 ▸ List.mem_cons_self) free'
  | cons word more ih =>
    cases first' with
    | nil => exact absurd ((List.cons.inj same).1 ▸ List.mem_cons_self) free
    | cons word' more' =>
      obtain ⟨rfl, later⟩ := List.cons.inj same
      obtain ⟨rfl, rest⟩ := ih (fun mem => free (List.mem_cons_of_mem _ mem))
        (fun mem => free' (List.mem_cons_of_mem _ mem)) later
      exact ⟨rfl, rest⟩

/-- Two underscores behind a plain name show where it ends. -/
theorem doubled_inj {first first' rest rest' : String} (plain : IsPlain first)
    (plain' : IsPlain first') (same : first ++ "__" ++ rest = first' ++ "__" ++ rest') :
    first = first' ∧ rest = rest' := by
  have words := congrArg words same
  rw [words_doubled, words_doubled] at words
  obtain ⟨left, right⟩ := append_empty_inj plain plain' words
  exact ⟨words_injective left, words_injective right⟩

end Variable

/-- A pair of positions above the diagonal is listed once. -/
theorem TermNames.nodup_upperPairs (size : Nat) : (upperPairs size).Nodup := by
  rw [upperPairs, List.nodup_flatMap]
  constructor
  · intro j _
    refine List.nodup_range.filterMap fun k k' pair one two => ?_
    simp only [Option.mem_def, Option.ite_none_right_eq_some, Option.some.injEq] at one two
    exact congrArg Prod.snd (one.2.trans two.2.symm)
  · refine List.nodup_range.pairwise_of_forall_ne fun j _ j' _ differ pair one two => ?_
    simp only [List.mem_filterMap, Option.ite_none_right_eq_some, Option.some.injEq] at one two
    obtain ⟨_, _, _, rfl⟩ := one
    obtain ⟨_, _, _, same⟩ := two
    exact differ (congrArg Prod.fst same).symm

namespace Specification

open TermNames (Shares correlationName upperPairs)
open Variable (firstWord words IsPlain)

/-- What a new name belongs to, by its first words. -/
inductive NameKind where
  /-- A coefficient shared by all observations, or the intercept. -/
  | coefficient
  | deviation
  | correlation
  | effect
  /-- The draws from the prior of a group's standard deviations. -/
  | priorDeviation
  /-- A variable that keeps its name. -/
  | other
  deriving Repr, DecidableEq

/-- The kind of a name. -/
def NameKind.ofWords : List String → NameKind
  | "b" :: _ => coefficient
  | "sd" :: _ => deviation
  | "cor" :: _ => correlation
  | "r" :: _ => effect
  | "prior" :: "sd" :: _ => priorDeviation
  | _ => other

/-- A new name of a kept variable. -/
inductive IsNewName (s : Specification) : NameKind → Variable → String → Prop
  /-- The name of a shared coefficient. -/
  | slope (coefficient : String) (mem : coefficient ∈ s.terms.population) :
    IsNewName s .coefficient .slopes ("b_" ++ coefficient)
  /-- The name of the intercept. -/
  | intercept (some : s.terms.intercept = true) : IsNewName s .coefficient .intercept "b_Intercept"
  /-- The name of a standard deviation. -/
  | deviation (group : Group) (mem : group ∈ s.terms.groups) (coefficient : String)
      (own : coefficient ∈ group.coefficients) :
    IsNewName s .deviation (.deviations group.id) ("sd_" ++ group.factor ++ "__" ++ coefficient)
  /-- The name of a correlation. -/
  | correlation (group : Group) (mem : group ∈ s.terms.groups) (first second : String)
      (own : first ∈ group.coefficients ∧ second ∈ group.coefficients) :
    IsNewName s .correlation (.correlations group.id)
      ("cor_" ++ group.factor ++ "__" ++ first ++ "__" ++ second)
  /-- The name of the effects of a coefficient. -/
  | effect (group : Group) (mem : group ∈ s.terms.groups) (k : Nat)
      (inside : k < group.coefficients.length) :
    IsNewName s .effect (.effect group.id (k + 1))
      ("r_" ++ group.factor ++ "__" ++ group.coefficients[k])
  /-- The name of the draws from the prior of standard deviations. -/
  | priorDeviation (group : Group) (mem : group ∈ s.terms.groups) (drawn : s.samplePrior = .yes) :
    IsNewName s .priorDeviation (.priorDeviations group.id) ("prior_sd_" ++ group.factor)
  /-- The name of a variable that keeps it. -/
  | own (v : Variable) (shape : List Nat) (kept : IsKept s v shape)
      (words : NameKind.ofWords (words v.name) = .other) : IsNewName s .other v v.name

variable {a : ModelArguments} {s : Specification} {v : Variable} {shape : List Nat}
  {shares : Shares} {name : String}

/-- The words of a name that starts with a word. -/
theorem words_of_mark (mark word : String) (free : '_' ∉ word.toList) (same : mark = word ++ "_")
    (rest : String) : words (mark ++ rest) = word :: words rest := by
  rw [same, Variable.words_append free]

/-- The kind of a new name is read off its words. -/
theorem IsNewName.kind_eq {kind : NameKind} (named : IsNewName s kind v name) :
    NameKind.ofWords (words name) = kind := by
  cases named with
  | slope => rw [words_of_mark "b_" "b" (by decide) rfl]; rfl
  | intercept => decide
  | deviation =>
    rw [String.append_assoc, String.append_assoc, words_of_mark "sd_" "sd" (by decide) rfl]
    rfl
  | correlation =>
    simp only [String.append_assoc]
    rw [words_of_mark "cor_" "cor" (by decide) rfl]
    rfl
  | effect =>
    rw [String.append_assoc, String.append_assoc, words_of_mark "r_" "r" (by decide) rfl]
    rfl
  | priorDeviation group =>
    rw [show "prior_sd_" = "prior_" ++ "sd_" from rfl, String.append_assoc,
      words_of_mark "prior_" "prior" (by decide) rfl,
      words_of_mark "sd_" "sd" (by decide) rfl]
    rfl
  | own _ _ _ words => exact words

/-- A kept variable that is not renamed keeps its name. -/
theorem IsKept.isNewName (kept : IsKept s v shape) (other : v.isRenamed = false) :
    ∃ kind, IsNewName s kind v v.name := by
  have number (word : String) (i : Nat) (free : '_' ∉ word.toList) :
      words (word ++ "_" ++ toString i) = [word, toString i] := by
    rw [Variable.words_append free, Variable.words_number]
  have own := kept
  cases kept with
  | slopes | deviations | correlations | effect | priorDeviations => cases other
  | intercept some => exact ⟨_, .intercept some⟩
  | standardized group =>
    refine ⟨_, .own _ _ own ?_⟩
    rw [show (Variable.standardized group.id).name = "z" ++ "_" ++ toString group.id from rfl,
      number "z" _ (by decide)]
    rfl
  | correlationFactor group =>
    refine ⟨_, .own _ _ own ?_⟩
    rw [show (Variable.correlationFactor group.id).name = "L" ++ "_" ++ toString group.id from rfl,
      number "L" _ (by decide)]
    rfl
  | auxiliary parameter | priorAuxiliary parameter =>
    exact ⟨_, .own _ _ own (by cases parameter <;> decide)⟩
  | feedback | priorSlopes | priorIntercept | priorFeedback => exact ⟨_, .own _ _ own (by decide)⟩

/-- The first words that new names, the names of variables and those of dimensions may have. -/
def reservedWords : List String :=
  ["b", "sd", "Cor", "cor", "r", "prior", "sigma", "nu", "shape", "ar", "z", "L", "chain", "draw"]

/-- Whether no names of a specification can be taken for others. -/
structure IsClear (s : Specification) : Prop where
  /-- No coefficient is called like the intercept. -/
  intercept : s.terms.intercept = true → "Intercept" ∉ s.terms.population
  /-- The grouping factors have plain names, and do not start like the names of draws. -/
  factors : ∀ group ∈ s.terms.groups,
    IsPlain group.factor ∧ firstWord group.factor ∉ reservedWords
  /-- The varying coefficients have plain names. -/
  coefficients : ∀ group ∈ s.terms.groups, ∀ coefficient ∈ group.coefficients, IsPlain coefficient
  /-- With draws from the priors, each factor has a single term. -/
  priors : s.samplePrior = .yes → (s.terms.groups.map Group.factor).Nodup

instance (s : Specification) : Decidable (IsClear s) :=
  decidable_of_iff ((s.terms.intercept = true → "Intercept" ∉ s.terms.population) ∧
      (∀ group ∈ s.terms.groups,
        IsPlain group.factor ∧ firstWord group.factor ∉ reservedWords) ∧
      (∀ group ∈ s.terms.groups, ∀ coefficient ∈ group.coefficients, IsPlain coefficient) ∧
      (s.samplePrior = .yes → (s.terms.groups.map Group.factor).Nodup))
    ⟨fun ⟨intercept, factors, coefficients, priors⟩ =>
      ⟨intercept, factors, coefficients, priors⟩,
      fun clear => ⟨clear.intercept, clear.factors, clear.coefficients, clear.priors⟩⟩

/-- The factor and the coefficient of an effect are read off their names. -/
theorem IsClear.effect_inj (clear : IsClear s) {first second : Group}
    (left : first ∈ s.terms.groups) (right : second ∈ s.terms.groups) {mark rest rest' : String}
    (same : mark ++ first.factor ++ "__" ++ rest = mark ++ second.factor ++ "__" ++ rest') :
    first.factor = second.factor ∧ rest = rest' := by
  simp only [String.append_assoc, String.append_right_inj] at same
  simp only [← String.append_assoc] at same
  exact Variable.doubled_inj (clear.factors first left).1 (clear.factors second right).1 same

/-- The factor and the coefficients of a correlation are read off its name. -/
theorem IsClear.correlation_inj (clear : IsClear s) {group group' : Group}
    (left : group ∈ s.terms.groups) (right : group' ∈ s.terms.groups)
    {first second first' second' : String}
    (own : first ∈ group.coefficients) (own' : first' ∈ group'.coefficients)
    (same : "cor_" ++ group.factor ++ "__" ++ first ++ "__" ++ second =
      "cor_" ++ group'.factor ++ "__" ++ first' ++ "__" ++ second') :
    group.factor = group'.factor ∧ first = first' ∧ second = second' := by
  have pair (factor first second : String) :
      "cor_" ++ factor ++ "__" ++ first ++ "__" ++ second =
        "cor_" ++ factor ++ "__" ++ (first ++ "__" ++ second) := by
    simp only [String.append_assoc]
  rw [pair, pair] at same
  obtain ⟨factor, rest⟩ := clear.effect_inj left right same
  exact ⟨factor, Variable.doubled_inj (clear.coefficients group left first own)
    (clear.coefficients group' right first' own') rest⟩

/-- A new name belongs to a single variable. -/
theorem IsNewName.eq (normal : IsNormal a s) (clear : IsClear s) {kind kind' : NameKind}
    {v v' : Variable} {name name' : String} (one : IsNewName s kind v name)
    (two : IsNewName s kind' v' name') (same : name = name') : v = v' := by
  obtain rfl : kind = kind' := by rw [← one.kind_eq, ← two.kind_eq, same]
  have slope {coefficient : String} (equal : "b_" ++ coefficient = "b_Intercept") :
      coefficient = "Intercept" := (String.append_right_inj "b_").mp equal
  cases one with
  | slope coefficient mem =>
    cases two with
    | slope => rfl
    | intercept some => exact absurd (slope same ▸ mem) (clear.intercept some)
  | intercept some =>
    cases two with
    | slope coefficient mem => exact absurd (slope same.symm ▸ mem) (clear.intercept some)
    | intercept => rfl
  | deviation group mem first own =>
    cases two with
    | deviation group' mem' second own' =>
      obtain ⟨factor, rfl⟩ := clear.effect_inj mem mem' same
      rw [normal.groups.group_unique mem mem' factor own own']
  | correlation group mem first second own =>
    cases two with
    | correlation group' mem' first' second' own' =>
      obtain ⟨factor, rfl, _⟩ := clear.correlation_inj mem mem' own.1 own'.1 same
      rw [normal.groups.group_unique mem mem' factor own.1 own'.1]
  | effect group mem k inside =>
    cases two with
    | effect group' mem' k' inside' =>
      obtain ⟨factor, equal⟩ := clear.effect_inj mem mem' same
      obtain rfl := normal.groups.group_unique mem mem' factor (List.getElem_mem inside)
        (equal ▸ List.getElem_mem inside')
      rw [(normal.groups.nodup_coefficients mem).getElem_inj_iff.mp equal]
  | priorDeviation group mem drawn =>
    cases two with
    | priorDeviation group' mem' =>
      have factor := (String.append_right_inj "prior_sd_").mp same
      rw [List.inj_on_of_nodup_map (clear.priors drawn) mem mem' factor]
  | own =>
    cases two with
    | own => exact Variable.name_injective same

/-- The names of shares are new names of their variable. -/
theorem IsShared.isNewName (shared : IsShared s v shape shares)
    (mem : name ∈ shares.map Prod.fst) : ∃ kind, IsNewName s kind v name := by
  cases shared with
  | slopes =>
    rw [TermNames.names_elements] at mem
    obtain ⟨coefficient, own, rfl⟩ := List.mem_map.mp mem
    exact ⟨_, .slope coefficient own⟩
  | deviations group inside =>
    rw [TermNames.names_elements] at mem
    obtain ⟨coefficient, own, rfl⟩ := List.mem_map.mp mem
    exact ⟨_, .deviation group inside coefficient own⟩
  | correlations group inside =>
    rw [List.map_map] at mem
    obtain ⟨⟨j, k⟩, pair, rfl⟩ := List.mem_map.mp mem
    obtain ⟨ordered, below⟩ := TermNames.mem_upperPairs.mp pair
    have before := Nat.lt_trans ordered below
    refine ⟨.correlation, ?_⟩
    show IsNewName s .correlation _ (correlationName group j k)
    rw [TermNames.correlationName_eq before below]
    exact .correlation group inside _ _ ⟨List.getElem_mem before, List.getElem_mem below⟩
  | effect group inside k below =>
    obtain rfl := List.mem_singleton.mp mem
    exact ⟨_, .effect group inside k below⟩
  | priorDeviations group inside drawn =>
    obtain rfl := List.mem_singleton.mp mem
    exact ⟨_, .priorDeviation group inside drawn⟩
  | own _ _ kept other =>
    obtain rfl := List.mem_singleton.mp mem
    exact kept.isNewName other

/-- The new names of a single variable are distinct. -/
theorem IsShared.nodup (normal : IsNormal a s) (clear : IsClear s)
    (shared : IsShared s v shape shares) : (shares.map Prod.fst).Nodup := by
  cases shared with
  | slopes =>
    obtain ⟨columns, design, labels⟩ := normal.design
    rw [TermNames.names_elements, labels]
    exact (Design.matrix_eq_ok design).2.map fun _ _ same => (String.append_right_inj _).mp same
  | deviations group mem =>
    rw [TermNames.names_elements]
    exact (normal.groups.nodup_coefficients mem).map fun _ _ same =>
      (String.append_right_inj _).mp same
  | correlations group mem =>
    rw [List.map_map]
    refine (TermNames.nodup_upperPairs group.size).map_on fun (j, k) pair (j', k') pair' same => ?_
    obtain ⟨ordered, below⟩ := TermNames.mem_upperPairs.mp pair
    obtain ⟨ordered', below'⟩ := TermNames.mem_upperPairs.mp pair'
    have before := Nat.lt_trans ordered below
    have before' := Nat.lt_trans ordered' below'
    change correlationName group j k = correlationName group j' k' at same
    rw [TermNames.correlationName_eq before below,
      TermNames.correlationName_eq before' below'] at same
    obtain ⟨_, first, second⟩ := clear.correlation_inj mem mem (List.getElem_mem before)
      (List.getElem_mem before') same
    have distinct := normal.groups.nodup_coefficients mem
    rw [distinct.getElem_inj_iff.mp first, distinct.getElem_inj_iff.mp second]
  | effect | priorDeviations | own => exact List.nodup_singleton _

/-- A name behind a mark starts with the word of the mark. -/
theorem firstWord_of_mark (mark word : String) (free : '_' ∉ word.toList)
    (same : mark = word ++ "_") (listed : word ∈ reservedWords) (rest : String) :
    firstWord (mark ++ rest) ∈ reservedWords := by
  rw [firstWord, words_of_mark mark word free same]
  exact listed

/-- The name of a kept variable starts with a reserved word. -/
theorem IsKept.firstWord_mem (kept : IsKept s v shape) : firstWord v.name ∈ reservedWords := by
  cases kept with
  | auxiliary parameter | priorAuxiliary parameter => cases parameter <;> decide
  | slopes | feedback | intercept | priorSlopes | priorIntercept | priorFeedback => decide
  | deviations => exact firstWord_of_mark "sd_" "sd" (by decide) rfl (by decide) _
  | standardized => exact firstWord_of_mark "z_" "z" (by decide) rfl (by decide) _
  | correlationFactor => exact firstWord_of_mark "L_" "L" (by decide) rfl (by decide) _
  | correlations => exact firstWord_of_mark "Cor_" "Cor" (by decide) rfl (by decide) _
  | effect group _ k =>
    have split : (Variable.effect group.id (k + 1)).name =
        "r_" ++ (toString group.id ++ ("_" ++ toString (k + 1))) := by
      show "r_" ++ toString group.id ++ "_" ++ toString (k + 1) = _
      simp only [String.append_assoc]
    rw [split]
    exact firstWord_of_mark "r_" "r" (by decide) rfl (by decide) _
  | priorDeviations group =>
    have split : (Variable.priorDeviations group.id).name =
        "prior_" ++ ("sd_" ++ toString group.id) := by
      rw [← String.append_assoc]
      rfl
    rw [split]
    exact firstWord_of_mark "prior_" "prior" (by decide) rfl (by decide) _

/-- A new name starts with a reserved word. -/
theorem IsNewName.firstWord_mem {kind : NameKind} (named : IsNewName s kind v name) :
    firstWord name ∈ reservedWords := by
  cases named with
  | slope => exact firstWord_of_mark "b_" "b" (by decide) rfl (by decide) _
  | intercept => decide
  | deviation =>
    rw [String.append_assoc, String.append_assoc]
    exact firstWord_of_mark "sd_" "sd" (by decide) rfl (by decide) _
  | correlation =>
    simp only [String.append_assoc]
    exact firstWord_of_mark "cor_" "cor" (by decide) rfl (by decide) _
  | effect =>
    rw [String.append_assoc, String.append_assoc]
    exact firstWord_of_mark "r_" "r" (by decide) rfl (by decide) _
  | priorDeviation =>
    rw [show "prior_sd_" = "prior_" ++ "sd_" from rfl, String.append_assoc]
    exact firstWord_of_mark "prior_" "prior" (by decide) rfl (by decide) _
  | own _ _ kept => exact kept.firstWord_mem

end Specification

end Multilevel
