import Mathlib
import Multilevel.Proofs.Prior.Merge
import Multilevel.Proofs.Program.Increments

/-!
# Flat priors

A prior is checked with the blanks around its text stripped, so that a blank text is a flat prior;
in effect is a prior whose text is not empty. Of the priors on a slot, on that of its group and on
its class, `Priors.proper` is the first that is not flat. Main statement: what a model looks up,
adds to the target, draws from and asks for are the proper priors, all of them calls of
distributions, exactly if the flat priors of the caller are empty; those that are set with a
stripped text are (`Priors.takes_proper_iff`).
-/
namespace Multilevel

open Text (AreBlank)

instance (prior : Prior) : Decidable prior.IsFlat :=
  List.decidableBAll (fun c => Text.isBlank c = true) prior.text.toList

namespace Prior

/-- An empty prior is flat. -/
theorem isFlat_of_text_eq {prior : Prior} (empty : prior.text = "") : prior.IsFlat := by
  simp [IsFlat, empty, AreBlank]

/-- A flat prior is no call. -/
theorem IsFlat.call?_eq_none {prior : Prior} (flat : prior.IsFlat) : prior.call? = none := by
  rw [call?, Text.stripBoth_eq_nil_iff.mpr flat]
  rfl

/-- A flat prior that is set is empty. -/
theorem IsFlat.text_eq_of_set {prior : Prior} {text : String} {slot : Slot} (flat : prior.IsFlat)
    (made : Prior.set text slot = .ok prior) : prior.text = "" := by
  by_contra filled
  obtain ⟨call, spelled⟩ := Priors.exists_call_of_set made filled
  rw [flat.call?_eq_none] at spelled
  cases spelled

/-- A well-formed prior that is not flat is a call. -/
theorem IsWellFormed.exists_call {prior : Prior} (formed : prior.IsWellFormed)
    (proper : ¬prior.IsFlat) : ∃ call, prior.call? = some call := by
  obtain ⟨name, arguments, spells, _⟩ := formed.spelled.resolve_left proper
  exact ⟨⟨name, _⟩, call?_eq_some_iff.mpr ⟨arguments, spells, rfl⟩⟩

/-- The distribution of a call has a name in a program. -/
theorem isDistributionName_program {prior : Prior} {call : DistributionCall}
    (spelled : prior.call? = some call) : IsDistributionName (programDistribution call.name) := by
  obtain ⟨arguments, spells, _⟩ := call?_eq_some_iff.mp spelled
  unfold programDistribution
  split
  · exact ⟨'l', "kj_corr_cholesky".toList, rfl, rfl, List.all_eq_true.mp rfl⟩
  · exact spells.named

end Prior

/-- What a log density is of: a parameter, by itself or with the arguments of the distribution. -/
def densityText (parameter arguments : String) : String :=
  if arguments = "" then parameter else parameter ++ " | " ++ arguments

/-- Whether an expression is the log density of a parameter under a distribution with a name. -/
def Expr.IsDensity (density : Expr) : Prop :=
  ∃ name parameter arguments, IsDistributionName name ∧ (Expr.parameter? parameter).isSome = true ∧
    density.text = name ++ "_lpdf(" ++ densityText parameter.text arguments ++ ")"

/-- Whether an expression is a draw from a distribution with a name. -/
def Expr.IsDraw (draw : Expr) : Prop :=
  ∃ name arguments, IsDistributionName name ∧ draw.text = name ++ "_rng(" ++ arguments ++ ")"

/-- The density of a call is that of a distribution with a name. -/
theorem DistributionCall.isDensity {prior : Prior} {call : DistributionCall}
    (spelled : prior.call? = some call) (parameter : ModelParameter) :
    (call.density parameter.expr).IsDensity := by
  refine ⟨programDistribution call.name, parameter.expr, call.arguments,
    Prior.isDistributionName_program spelled, ?_, ?_⟩
  · obtain ⟨holder, place⟩ := parameter
    cases place <;> rfl
  · rw [density, densityText]
    by_cases none : call.arguments = ""
    · simp [none, Expr.text, String.append_assoc]
    · simp [none, Expr.text, Operator.text, String.append_assoc]

/-- A draw from a call is one from a distribution with a name. -/
theorem Prior.isDraw_draw {prior : Prior} {call : DistributionCall}
    (spelled : prior.call? = some call) : prior.draw.IsDraw := by
  refine ⟨programDistribution call.name, call.arguments, isDistributionName_program spelled, ?_⟩
  rw [draw, distribution, arguments, spelled]
  simp [Expr.text, String.append_assoc]

namespace Priors

/-- The proper prior for a slot: the first that is not flat among those on the slot, on the one of
its group and on the one of its class. -/
def proper (given : List Prior) (slot : Slot) : Option Prior :=
  [onSlot given slot, onSlot given ⟨slot.className, "", slot.group⟩,
    onSlot given ⟨slot.className, "", ""⟩].find? fun prior => ¬prior.IsFlat

/-- The variables that draws from the priors of a model may be kept in, each with its slot and the
bounds of its draws. -/
def drawEntries (tree : TermTree) : List (Variable × Slot × Option (String × Option String)) :=
  (if tree.population.isEmpty then [] else [(.priorSlopes, ⟨"b", "", ""⟩, none)]) ++
    (if tree.intercept then [(.priorIntercept, ⟨"Intercept", "", ""⟩, none)] else []) ++
    (tree.family.distribution.auxiliaries.map fun parameter =>
      (.priorAuxiliary parameter, ⟨parameter.name, "", ""⟩, some (parameter.lower, none))) ++
    (if tree.autocorrelation.isSome then
      [(.priorFeedback, ⟨"ar", "", ""⟩, some ("-1", some "1"))] else []) ++
    tree.groups.map fun group =>
      (.priorDeviations group.id, ⟨"sd", "", group.factor⟩, some ("0", none))

/-- Whether just the proper priors take effect in a model. -/
structure TakesProper (tree : TermTree) (given priors : List Prior) (sample : SamplePrior) :
    Prop where
  /-- A slot with a flat prior is looked up on the slots that it inherits from. -/
  found : ∀ slot ∈ slots tree, lookup priors slot = (proper given slot).getD ⟨"", slot⟩
  /-- A proper prior adds its density once, to its parameter alone or to all slopes at once. -/
  added : ∀ entry ∈ entries tree, ∀ prior, proper given entry.2 = some prior →
    ∃ call target, prior.call? = some call ∧
      (target = entry.1 ∨ target = ⟨.slopes, none⟩ ∧ entry.1.holder = .slopes) ∧
      (statements tree priors).filter (fun s => s.Adds entry.1) =
        [.increment (call.density target.expr)]
  /-- Where all priors are flat, nothing is added. -/
  silent : ∀ entry ∈ entries tree, proper given entry.2 = none →
    (statements tree priors).filter (fun s => s.Adds entry.1) = []
  /-- Each statement adds a log density of a distribution with a name. -/
  named : ∀ statement ∈ statements tree priors, ∃ density, statement = .increment density ∧
    density.IsDensity
  /-- Draws are from the proper priors, and there are no others. -/
  drawn : draws tree priors = (drawEntries tree).filterMap fun (v, slot, bounds) =>
    (proper given slot).map fun prior => ⟨v, prior, bounds⟩
  /-- Each draw is from a distribution with a name. -/
  drawnNamed : ∀ draw ∈ draws tree priors, draw.prior.draw.IsDraw
  /-- Draws from the priors alone need a proper prior for each coefficient. -/
  required : sample = .only →
    (∀ coefficient ∈ tree.population, (proper given ⟨"b", coefficient, ""⟩).isSome = true) ∧
      (tree.intercept = true → (proper given ⟨"Intercept", "", ""⟩).isSome = true)

section Flat

variable {tree : TermTree} {given priors : List Prior} {sample : SamplePrior} {slot : Slot}
  {prior : Prior}

/-- A default that is flat is empty. -/
theorem text_slotDefault (flat : (slotDefault slot).IsFlat) : (slotDefault slot).text = "" := by
  by_contra filled
  obtain ⟨call, spelled⟩ := exists_call_of_default filled
  rw [flat.call?_eq_none] at spelled
  cases spelled

/-- Where flat priors are empty, the priors in effect are the proper ones. -/
theorem effective_eq_proper (empty : ∀ prior ∈ given, prior.IsFlat → prior.text = "") (slot : Slot) :
    effective given slot = proper given slot := by
  have judged (slot : Slot) : (!(onSlot given slot).text.isEmpty) =
      decide ¬(onSlot given slot).IsFlat := by
    have flat : (onSlot given slot).IsFlat ↔ (onSlot given slot).text = "" := by
      constructor
      · intro flat
        rcases onSlot_cases given slot with own | default
        · exact empty _ own flat
        · rw [default] at flat ⊢
          exact text_slotDefault flat
      · exact Prior.isFlat_of_text_eq
    rw [Bool.eq_iff_iff]
    simp [flat]
  simp only [effective, proper, List.find?_cons, List.find?_nil, judged]

/-- A proper prior is not flat. -/
theorem not_isFlat_of_proper (found : proper given slot = some prior) : ¬prior.IsFlat := by
  simpa using List.find?_some found

/-- A proper prior is a call. -/
theorem exists_call_of_proper (formed : ∀ prior ∈ given, prior.IsWellFormed)
    (found : proper given slot = some prior) : ∃ call, prior.call? = some call := by
  have unflat := not_isFlat_of_proper found
  obtain ⟨s, rfl⟩ := exists_onSlot_of_find? found
  rcases onSlot_cases given s with own | default
  · exact (formed _ own).exists_call unflat
  · rw [default] at unflat ⊢
    exact exists_call_of_default fun empty => unflat (Prior.isFlat_of_text_eq empty)

/-- A flat prior that is not empty is found on its slot, though it is not proper. -/
theorem lookup_ne_proper (accepted : merge tree given sample = .ok priors) (mem : prior ∈ given)
    (flat : prior.IsFlat) (filled : prior.text ≠ "") :
    lookup priors prior.slot ≠ (proper given prior.slot).getD ⟨"", prior.slot⟩ := by
  have suits := (merge_eq_ok_iff.mp accepted).1
  have own : onSlot given prior.slot = prior := by
    have found : (get? given prior.slot).isSome = true :=
      isSome_get?_iff.mpr (List.mem_map_of_mem mem)
    obtain ⟨other, found⟩ := Option.isSome_iff_exists.mp found
    obtain ⟨inside, same⟩ := mem_of_get? found
    rw [onSlot, found]
    exact List.inj_on_of_nodup_map suits.distinct inside mem same
  have effect : effective given prior.slot = some prior := by
    rw [effective, own]
    exact List.find?_cons_of_pos (by simpa using filled)
  rw [lookup_merge accepted (suits.known prior mem), effect, Option.getD_some]
  intro same
  cases found : proper given prior.slot with
  | none =>
    rw [found] at same
    exact filled (congrArg Prior.text same)
  | some other =>
    rw [found, Option.getD_some] at same
    exact not_isFlat_of_proper found (same ▸ flat)

/-- The draws are those of the variables whose slots have a prior. -/
theorem draws_eq_flatMap : draws tree priors = (drawEntries tree).flatMap fun (v, slot, bounds) =>
    drawOf v (lookup priors slot) bounds := by
  have single {c : Prop} [Decidable c] (e : Variable × Slot × Option (String × Option String))
      (f : Variable × Slot × Option (String × Option String) → List PriorDraw) :
      (if c then [e] else []).flatMap f = if c then f e else [] := by
    split <;> simp
  have other {c : Prop} [Decidable c] (e : Variable × Slot × Option (String × Option String))
      (f : Variable × Slot × Option (String × Option String) → List PriorDraw) :
      (if c then [] else [e]).flatMap f = if c then [] else f e := by
    split <;> simp
  simp only [draws, drawEntries, List.flatMap_append, List.flatMap_map, single, other]

/-- The slots that are drawn from are slots of the model. -/
theorem mem_slots_of_mem_drawEntries {entry : Variable × Slot × Option (String × Option String)}
    (mem : entry ∈ drawEntries tree) : entry.2.1 ∈ slots tree := by
  simp only [drawEntries, List.mem_append, List.mem_map] at mem
  rcases mem with (((slopes | intercept) | ⟨parameter, own, rfl⟩) | feedback) | ⟨group, inside, rfl⟩
  · split at slopes
    · cases slopes
    · obtain rfl := List.mem_singleton.mp slopes
      simp_all [slots, populationSlots]
  · split at intercept
    · obtain rfl := List.mem_singleton.mp intercept
      simp_all [slots]
    · cases intercept
  · refine List.mem_append_right _ (List.mem_map.mpr ⟨parameter.name, ?_, rfl⟩)
    exact List.mem_append_left _ (List.mem_map_of_mem own)
  · split at feedback
    · obtain rfl := List.mem_singleton.mp feedback
      rename_i structured
      refine List.mem_append_right _ (List.mem_map.mpr ⟨"ar", ?_, rfl⟩)
      simp [TermTree.auxiliaries, structured]
    · cases feedback
  · have some : tree.groups ≠ [] := List.ne_nil_of_mem inside
    have own : (⟨"sd", "", group.factor⟩ : Slot) ∈ deviationSlots tree := by
      simp only [deviationSlots, List.isEmpty_iff, some, ↓reduceIte, List.mem_cons,
        List.mem_flatMap]
      exact .inr ⟨group.factor, (mem_groupsOf inside).1, .inl rfl⟩
    simp only [slots, List.mem_append]
    exact .inl (.inl (.inr own))

variable (priors) in
/-- One statement adds the prior that is looked up for a parameter, if there is one. -/
theorem exists_filter_adds (distinct : (tree.groups.map Group.id).Nodup)
    {entry : ModelParameter × Slot} (mem : entry ∈ entries tree) :
    ∃ (target : ModelParameter) (other : Prior),
      (target = entry.1 ∨ target = ⟨.slopes, none⟩ ∧ entry.1.holder = .slopes) ∧
      other.text = (lookup priors entry.2).text ∧
      (statements tree priors).filter (fun s => s.Adds entry.1) =
        (other.increment? target.expr).toList := by
  obtain ⟨target, other, own, covers, planned, text⟩ := exists_planned priors mem
  refine ⟨target, other, own, text, ?_⟩
  rw [statements_eq, filter_adds (isFaithful_planned tree priors) (apart_planned priors distinct)
    planned covers]

/-- The density of standardized effects is that of a distribution with a name. -/
theorem isDensity_standardNormal (i : Nat) :
    (Expr.call "std_normal_lpdf" (.call "to_vector" (Variable.standardized i))).IsDensity := by
  refine ⟨"std_normal", .call "to_vector" (Variable.standardized i), "", ?_, rfl, ?_⟩
  · exact ⟨'s', "td_normal".toList, rfl, rfl, List.all_eq_true.mp rfl⟩
  · simp [Expr.text, densityText, String.append_assoc]

section Looked

variable (looked : ∀ slot ∈ slots tree, lookup priors slot = (proper given slot).getD ⟨"", slot⟩)
  {entry : ModelParameter × Slot}

include looked

/-- Where the proper priors are looked up, one of them adds its density once. -/
theorem filter_adds_of_proper (formed : ∀ prior ∈ given, prior.IsWellFormed)
    (distinct : (tree.groups.map Group.id).Nodup) (mem : entry ∈ entries tree)
    (own : proper given entry.2 = some prior) :
    ∃ call target, prior.call? = some call ∧
      (target = entry.1 ∨ target = ⟨.slopes, none⟩ ∧ entry.1.holder = .slopes) ∧
      (statements tree priors).filter (fun s => s.Adds entry.1) =
        [.increment (call.density target.expr)] := by
  obtain ⟨call, spelled⟩ := exists_call_of_proper formed own
  obtain ⟨target, other, place, text, adds⟩ := exists_filter_adds priors distinct mem
  rw [looked _ (mem_slots_of_mem_entries mem), own, Option.getD_some] at text
  have same : other.call? = some call := by rw [← spelled, Prior.call?, Prior.call?, text]
  have filled : other.text ≠ "" := fun empty =>
    not_isFlat_of_proper own (Prior.isFlat_of_text_eq (text ▸ empty))
  refine ⟨call, target, spelled, place, ?_⟩
  rw [adds, increment?_of_call filled same, Option.toList_some]

/-- Where the proper priors are looked up and there is none, nothing is added. -/
theorem filter_adds_of_flat (distinct : (tree.groups.map Group.id).Nodup)
    (mem : entry ∈ entries tree) (none : proper given entry.2 = none) :
    (statements tree priors).filter (fun s => s.Adds entry.1) = [] := by
  obtain ⟨target, other, _, text, adds⟩ := exists_filter_adds priors distinct mem
  rw [looked _ (mem_slots_of_mem_entries mem), none, Option.getD_none] at text
  rw [adds, Prior.increment?, text]
  rfl

/-- Where the proper priors are looked up, the draws are from these. -/
theorem draws_eq_filterMap : draws tree priors =
    (drawEntries tree).filterMap fun (v, slot, bounds) =>
      (proper given slot).map fun prior => ⟨v, prior, bounds⟩ := by
  rw [draws_eq_flatMap, List.filterMap_eq_flatMap_toList]
  refine List.flatMap_congr fun entry mem => ?_
  obtain ⟨v, slot, bounds⟩ := entry
  dsimp only
  rw [looked _ (mem_slots_of_mem_drawEntries mem)]
  cases own : proper given slot with
  | none => rfl
  | some prior =>
    have filled : prior.text ≠ "" := fun empty =>
      not_isFlat_of_proper own (Prior.isFlat_of_text_eq empty)
    simp [drawOf, filled]

end Looked

/-- Where flat priors are empty, just the proper priors take effect. -/
theorem takesProper (distinct : (tree.groups.map Group.id).Nodup)
    (accepted : merge tree given sample = .ok priors)
    (empty : ∀ prior ∈ given, prior.IsFlat → prior.text = "") :
    TakesProper tree given priors sample := by
  have suits := (merge_eq_ok_iff.mp accepted).1
  have same := effective_eq_proper empty
  have looked : ∀ slot ∈ slots tree,
      lookup priors slot = (proper given slot).getD ⟨"", slot⟩ := fun slot mem => by
    rw [lookup_merge accepted mem, same]
  have drawn := draws_eq_filterMap looked
  refine ⟨looked, fun entry mem prior own =>
      filter_adds_of_proper looked suits.wellFormed distinct mem own,
    fun entry mem none => filter_adds_of_flat looked distinct mem none, fun statement mem => ?_, drawn,
    fun draw mem => ?_, fun only => ?_⟩
  · -- A statement is planned for a parameter with a slot, or for standardized effects.
    have listed := mem
    rw [statements_eq] at listed
    obtain ⟨plan, planned, here⟩ := List.mem_filterMap.mp listed
    rcases covers_of_mem_planned planned with ⟨entry, inside, covers⟩ | ⟨group, _, normal⟩
    · have adds : statement ∈ (statements tree priors).filter (fun s => s.Adds entry.1) :=
        List.mem_filter.mpr ⟨mem, decide_eq_true
          ⟨plan.1, isFaithful_planned tree priors plan planned statement here, covers⟩⟩
      cases own : proper given entry.2 with
      | none =>
        rw [filter_adds_of_flat looked distinct inside own] at adds
        cases adds
      | some prior =>
        obtain ⟨call, target, spelled, _, one⟩ :=
          filter_adds_of_proper looked suits.wellFormed distinct inside own
        rw [one, List.mem_singleton] at adds
        exact ⟨_, adds, DistributionCall.isDensity spelled target⟩
    · obtain rfl := Option.some.inj (here.symm.trans normal)
      exact ⟨_, rfl, isDensity_standardNormal group.id⟩
  · rw [drawn] at mem
    obtain ⟨⟨v, slot, bounds⟩, _, here⟩ := List.mem_filterMap.mp mem
    obtain ⟨prior, own, rfl⟩ := Option.map_eq_some_iff.mp here
    obtain ⟨call, spelled⟩ := exists_call_of_proper suits.wellFormed own
    exact Prior.isDraw_draw spelled
  · simpa only [same] using suits.proper only

end Flat

/-- Just the proper priors take effect exactly if the flat ones are empty, as those are that are
set. -/
theorem takes_proper_iff {formula : Formula} {family : Family}
    {autocorrelation : Option Autocorrelation} {frame : Frame} {covariances : List String}
    {tree : TermTree}
    (built : TermTree.build formula family autocorrelation frame covariances = .ok tree)
    {given priors : List Prior} {sample : SamplePrior}
    (accepted : merge tree given sample = .ok priors) :
    (TakesProper tree given priors sample ↔ ∀ prior ∈ given, prior.IsFlat → prior.text = "") ∧
    ((∀ prior ∈ given, ∃ text slot, Prior.set text slot = .ok prior) →
      TakesProper tree given priors sample) := by
  obtain ⟨-, -, groups⟩ := TermTree.build_eq_ok built
  have distinct : (tree.groups.map Group.id).Nodup := groups.ids ▸ List.nodup_range'
  have suits := (merge_eq_ok_iff.mp accepted).1
  refine ⟨⟨fun takes prior mem flat => ?_, takesProper distinct accepted⟩, fun checked => ?_⟩
  · by_contra filled
    exact lookup_ne_proper accepted mem flat filled (takes.found _ (suits.known prior mem))
  · refine takesProper distinct accepted fun prior mem flat => ?_
    obtain ⟨text, slot, made⟩ := checked prior mem
    exact flat.text_eq_of_set made

/-- A slope without an intercept. -/
def slopeFormula : Formula := ⟨"y", none, false, [⟨["x"]⟩], []⟩

/-- Its priors: none for the slope itself, and a proper one for all slopes. -/
def slopePriors : List Prior := [⟨"", ⟨"b", "x", ""⟩⟩, ⟨"normal(0, 1)", ⟨"b", "", ""⟩⟩]

/-- An empty prior leaves a slope to the prior of all slopes, also if draws come from the priors
alone. -/
theorem slope_takes_proper : ∃ tree priors,
    TermTree.build slopeFormula .gaussian none sampleTable [] = .ok tree ∧
    merge tree slopePriors .only = .ok priors ∧ TakesProper tree slopePriors priors .only := by
  obtain ⟨tree, built, placed⟩ := exists_of_any
    (TermTree.build slopeFormula .gaussian none sampleTable [])
    (fun tree => (merge tree slopePriors .only).isOk) (by decide +kernel)
  obtain ⟨priors, accepted⟩ := exists_of_isOk placed
  have empty : ∀ prior ∈ slopePriors, prior.IsFlat → prior.text = "" := by
    refine List.forall_mem_cons.mpr ⟨fun _ => rfl, List.forall_mem_singleton.mpr fun flat => ?_⟩
    exact absurd flat (by decide +kernel)
  exact ⟨tree, priors, built, accepted, (takes_proper_iff built accepted).1.mpr empty⟩

/-- A blank prior for all slopes. -/
def blankPrior : Prior := ⟨" ", ⟨"b", "", ""⟩⟩

/-- A blank prior passes for a proper one: it is found for the slope, adds the log density of a
distribution without a name and is drawn from, and it is enough to draw from the priors alone. -/
theorem blank_taken : ∃ tree priors,
    TermTree.build slopeFormula .gaussian none sampleTable [] = .ok tree ∧
    merge tree [blankPrior] .only = .ok priors ∧
    blankPrior.IsFlat ∧
    lookup priors ⟨"b", "x", ""⟩ = blankPrior ∧
    .increment (.call "_lpdf" Variable.slopes) ∈ statements tree priors ∧
    .call "_rng" (.verbatim "") ∈ (draws tree priors).map fun draw => draw.prior.draw := by
  obtain ⟨tree, built, computed⟩ := exists_of_any
    (TermTree.build slopeFormula .gaussian none sampleTable [])
    (fun tree => (merge tree [blankPrior] .only).toOption.any fun priors =>
      decide (lookup priors ⟨"b", "x", ""⟩ = blankPrior ∧
        Statement.increment (.call "_lpdf" Variable.slopes) ∈ statements tree priors ∧
        Expr.call "_rng" (.verbatim "") ∈ (draws tree priors).map fun draw => draw.prior.draw))
    (by decide +kernel)
  obtain ⟨priors, accepted, computed⟩ := exists_of_any _ _ computed
  exact ⟨tree, priors, built, accepted, by decide +kernel, of_decide_eq_true computed⟩

end Priors

end Multilevel
