import Mathlib
import Multilevel.Prior.Slots
import Multilevel.Proofs.Outcome
import Multilevel.Proofs.Text.Spaced

/-!
# Priors in effect

The caller's prior stands on a slot if there is one, and the default elsewhere (`Priors.onSlot`).
Of the priors on a slot, on that of its group and on its class, the first that is not empty is in
effect (`Priors.effective`). Main statements: putting the caller's priors in their places leaves
just these priors on the slots of a model (`Priors.get?_merge`), looking a slot up gives the one in
effect (`Priors.lookup_merge`), and a prior in effect is the call of a distribution
(`Priors.exists_call`).
-/
namespace Multilevel

namespace Priors

/-- The prior on a slot: the caller's, or the default if the caller gives none. -/
def onSlot (given : List Prior) (slot : Slot) : Prior := (get? given slot).getD (slotDefault slot)

/-- The prior in effect for a slot: the first that is not empty among those on the slot, on the one
of its group and on the one of its class. -/
def effective (given : List Prior) (slot : Slot) : Option Prior :=
  [onSlot given slot, onSlot given ⟨slot.className, "", slot.group⟩,
    onSlot given ⟨slot.className, "", ""⟩].find? fun prior => !prior.text.isEmpty

section Merge

variable {given merged priors : List Prior} {used : List Slot} {slot : Slot} {prior : Prior}

/-- The first prior is found on its own slot. -/
theorem get?_cons (prior : Prior) (rest : List Prior) :
    get? (prior :: rest) slot = if prior.slot = slot then some prior else get? rest slot := by
  simp only [get?, List.find?_cons]
  by_cases own : prior.slot = slot <;> simp [own]

/-- A prior that is found is one of the list and stands on the slot. -/
theorem mem_of_get? (found : get? given slot = some prior) : prior ∈ given ∧ prior.slot = slot :=
  ⟨List.mem_of_find?_eq_some found, by simpa using List.find?_some found⟩

/-- A prior in its place is found there, and the others where they were. -/
theorem get?_place : get? (place merged prior) slot =
    (get? merged slot).map fun old => if prior.slot = slot then prior else old := by
  induction merged with
  | nil => rfl
  | cons first rest ih =>
    have step : place (first :: rest) prior =
      (if first.slot = prior.slot then prior else first) :: place rest prior := rfl
    rw [step, get?_cons, get?_cons, ih]
    by_cases here : first.slot = slot
    · by_cases own : prior.slot = slot
      · simp [here, own]
      · have other : first.slot ≠ prior.slot := fun same => own (same ▸ here)
        rw [if_neg other, if_pos here, if_pos here, Option.map_some, if_neg own]
    · by_cases own : first.slot = prior.slot
      · have other : prior.slot ≠ slot := own ▸ here
        simp [own, other]
      · simp [own, here]

/-- A prior that is put in its place is well-formed and stands on a slot of the model that has not
been used. -/
theorem placeAll_cons_eq_ok {rest : List Prior} :
    placeAll (prior :: rest) used merged = .ok priors ↔
      prior.validate = .ok () ∧ prior.slot ∉ used ∧ (get? merged prior.slot).isSome = true ∧
        placeAll rest (prior.slot :: used) (place merged prior) = .ok priors := by
  simp only [placeAll, bind_eq_ok, ↓throw_bind, ite_throw_eq_ok, List.contains_iff_mem,
    Option.isNone_iff_eq_none, Option.isSome_iff_ne_none]
  constructor
  · rintro ⟨_, valid⟩
    exact valid
  · exact fun valid => ⟨(), valid⟩

/-- Priors that are put in their places are well-formed and stand on slots that have not been
used. -/
theorem of_mem_placeAll (done : placeAll given used merged = .ok priors) (mem : prior ∈ given) :
    prior.validate = .ok () ∧ prior.slot ∉ used := by
  induction given generalizing used merged with
  | nil => cases mem
  | cons first rest ih =>
    obtain ⟨valid, free, _, done⟩ := placeAll_cons_eq_ok.mp done
    rcases List.mem_cons.mp mem with rfl | later
    · exact ⟨valid, free⟩
    · obtain ⟨valid, free⟩ := ih done later
      exact ⟨valid, fun before => free (List.mem_cons_of_mem _ before)⟩

/-- On a slot stands the prior that is put there, or the one that was there before. -/
theorem get?_placeAll (done : placeAll given used merged = .ok priors) :
    get? priors slot = (get? merged slot).map fun old => (get? given slot).getD old := by
  induction given generalizing used merged with
  | nil =>
    obtain rfl := Except.ok.inj done
    simp [get?]
  | cons first rest ih =>
    obtain ⟨_, _, _, done⟩ := placeAll_cons_eq_ok.mp done
    rw [ih done, get?_place, Option.map_map, get?_cons]
    by_cases own : first.slot = slot
    · -- The slot has been used, so that no later prior stands on it.
      have last : get? rest slot = none := by
        rw [get?, List.find?_eq_none]
        intro later mem here
        have free := (of_mem_placeAll done mem).2
        exact free (by simp_all)
      simp [own, last, Function.comp_def]
    · simp [own, Function.comp_def]

/-- On each slot of a model stands its default. -/
theorem get?_defaults {tree : TermTree} (mem : slot ∈ slots tree) :
    get? (defaults tree) slot = some (slotDefault slot) := by
  have own (s : Slot) : (slotDefault s).slot = s := rfl
  rw [defaults]
  generalize slots tree = all at mem
  induction all with
  | nil => cases mem
  | cons first rest ih =>
    rw [List.map_cons, get?_cons, own]
    by_cases here : first = slot
    · rw [if_pos here, here]
    · rw [if_neg here]
      exact ih ((List.mem_cons.mp mem).resolve_left fun same => here same.symm)

variable {tree : TermTree} {sample : SamplePrior}

/-- The priors of a model are those of the caller in their places. -/
theorem placeAll_of_merge (accepted : merge tree given sample = .ok priors) :
    placeAll given [] (defaults tree) = .ok priors := by
  simp only [merge, bind_eq_ok] at accepted
  obtain ⟨merged, placed, accepted⟩ := accepted
  split at accepted
  · simp only [↓throw_bind, ite_throw_eq_ok, pure_eq_ok] at accepted
    exact accepted.2 ▸ placed
  · exact pure_eq_ok.mp accepted ▸ placed

/-- On each slot of a model stands the caller's prior or the default. -/
theorem get?_merge (accepted : merge tree given sample = .ok priors) (mem : slot ∈ slots tree) :
    get? priors slot = some (onSlot given slot) := by
  rw [get?_placeAll (placeAll_of_merge accepted), get?_defaults mem, Option.map_some, onSlot]

/-- Whether slots come with those of their groups and of their classes. -/
def AreInherited (slots : List Slot) : Prop :=
  ∀ slot ∈ slots, ⟨slot.className, "", slot.group⟩ ∈ slots ∧ ⟨slot.className, "", ""⟩ ∈ slots

/-- Slots in two parts. -/
theorem AreInherited.append {first second : List Slot} (one : AreInherited first)
    (two : AreInherited second) : AreInherited (first ++ second) := by
  intro slot mem
  rcases List.mem_append.mp mem with left | right
  · obtain ⟨group, whole⟩ := one slot left
    exact ⟨List.mem_append_left _ group, List.mem_append_left _ whole⟩
  · obtain ⟨group, whole⟩ := two slot right
    exact ⟨List.mem_append_right _ group, List.mem_append_right _ whole⟩

/-- The slots of a model come with those of their groups and of their classes. -/
theorem areInherited_slots (tree : TermTree) : AreInherited (slots tree) := by
  have population : AreInherited (populationSlots tree) := by
    unfold populationSlots
    split <;> simp [AreInherited]
  have intercept : AreInherited (if tree.intercept then [⟨"Intercept", "", ""⟩] else []) := by
    split <;> simp [AreInherited]
  have deviations : AreInherited (deviationSlots tree) := by
    unfold deviationSlots
    split
    · simp [AreInherited]
    · refine List.forall_mem_cons.mpr ⟨by simp, ?_⟩
      intro slot mem
      obtain ⟨factor, inside, mem⟩ := List.mem_flatMap.mp mem
      obtain ⟨className, group⟩ := of_mem_factorSlots mem
      rw [className, group]
      exact ⟨List.mem_cons_of_mem _ (List.mem_flatMap.mpr ⟨factor, inside, List.mem_cons_self⟩),
        List.mem_cons_self⟩
  have correlations : AreInherited (correlationSlots tree) := by
    unfold correlationSlots
    split
    · refine List.forall_mem_cons.mpr ⟨by simp, ?_⟩
      intro slot mem
      have own : slot = ⟨"cor", "", slot.group⟩ := by
        obtain ⟨factor, _, here⟩ := List.mem_filterMap.mp mem
        split at here <;> cases here
        rfl
      rw [own] at mem ⊢
      exact ⟨List.mem_cons_of_mem _ mem, List.mem_cons_self⟩
    · simp [AreInherited]
  have auxiliaries : AreInherited (tree.auxiliaries.map fun name => ⟨name, "", ""⟩) := by
    simp [AreInherited]
  exact (((population.append intercept).append deviations).append correlations).append auxiliaries

/-- With a slot a model has all slots that it inherits from. -/
theorem inherited_subset (mem : slot ∈ slots tree) : inherited slot ⊆ slots tree := by
  obtain ⟨group, whole⟩ := areInherited_slots tree slot mem
  simp [inherited, mem, group, whole]

/-- Looking up a slot of a model gives the prior in effect for it. -/
theorem lookup_merge (accepted : merge tree given sample = .ok priors) (mem : slot ∈ slots tree) :
    lookup priors slot = (effective given slot).getD ⟨"", slot⟩ := by
  have first (chain : List Slot) (found : ∀ s ∈ chain, get? priors s = some (onSlot given s)) :
      (chain.findSome? fun s => (get? priors s).filter fun p => !p.text.isEmpty) =
        (chain.map (onSlot given)).find? fun p => !p.text.isEmpty := by
    induction chain with
    | nil => rfl
    | cons s rest ih =>
      rw [List.forall_mem_cons] at found
      rw [List.findSome?_cons, found.1, List.map_cons, List.find?_cons, ih found.2]
      cases filled : !(onSlot given s).text.isEmpty <;> simp [Option.filter, filled]
  have same : effective given slot =
    ((inherited slot).map (onSlot given)).find? fun p => !p.text.isEmpty := rfl
  rw [same, ← first (inherited slot) fun s inside => get?_merge accepted (inherited_subset mem inside)]
  unfold lookup
  cases (inherited slot).findSome? fun s => (get? priors s).filter fun p => !p.text.isEmpty <;> rfl

/-- The prior on a slot is one of the caller's or the default. -/
theorem onSlot_cases (given : List Prior) (slot : Slot) :
    onSlot given slot ∈ given ∨ onSlot given slot = slotDefault slot := by
  rw [onSlot]
  cases found : get? given slot with
  | none => exact .inr rfl
  | some prior => exact .inl (mem_of_get? found).1

/-- A prior that is found for a slot, by whatever is asked of it, is the one on some slot. -/
theorem exists_onSlot_of_find? {suits : Prior → Bool} (found : [onSlot given slot,
      onSlot given ⟨slot.className, "", slot.group⟩,
      onSlot given ⟨slot.className, "", ""⟩].find? suits = some prior) :
    ∃ s, onSlot given s = prior := by
  have mem := List.mem_of_find?_eq_some found
  simp only [List.mem_cons, List.not_mem_nil, or_false] at mem
  rcases mem with same | same | same <;> exact ⟨_, same.symm⟩

/-- A prior in effect is not empty. -/
theorem text_ne_of_effective (found : effective given slot = some prior) : prior.text ≠ "" := by
  simpa using List.find?_some found

/-- The text of the prior in effect for a slot of a model is that of the prior that is looked up. -/
theorem map_text_effective (accepted : merge tree given sample = .ok priors)
    (mem : slot ∈ slots tree) : (effective given slot).map Prior.text =
      if (lookup priors slot).text = "" then none else some (lookup priors slot).text := by
  rw [lookup_merge accepted mem]
  cases found : effective given slot with
  | none => rfl
  | some prior =>
    rw [Option.getD_some, if_neg (text_ne_of_effective found)]
    rfl

/-- A prior that is set is empty or the call of a distribution. -/
theorem exists_call_of_set {text : String} (made : Prior.set text slot = .ok prior)
    (filled : prior.text ≠ "") : ∃ call, prior.call? = some call := by
  simp only [Prior.set, bind_eq_ok, pure_eq_ok] at made
  obtain ⟨_, valid, rfl⟩ := made
  -- What is left of a stripped text cannot be stripped altogether.
  have left : Text.stripBoth (Text.strip text).toList ≠ [] := by
    rw [Text.strip, String.toList_ofList]
    intro none
    refine filled ?_
    obtain ⟨before, after, first, last, split⟩ := Text.exists_stripBoth text.toList
    have blank : Text.AreBlank text.toList := by
      rw [split]
      exact Text.areBlank_append.mpr
        ⟨first, Text.areBlank_append.mpr ⟨Text.stripBoth_eq_nil_iff.mp none, last⟩⟩
    rw [Text.strip, Text.stripBoth_eq_nil_iff.mpr blank]
  simp only [Prior.validate, ↓throw_bind, ite_throw_eq_ok, Bool.not_eq_true',
    List.isEmpty_eq_false_iff] at valid
  obtain ⟨_, valid⟩ := valid
  rw [if_pos left] at valid
  obtain ⟨call, _⟩ := ite_throw_eq_ok.mp valid
  rw [Bool.not_eq_true, Option.isNone_eq_false_iff] at call
  exact Option.isSome_iff_exists.mp call

/-- A default is empty or the call of a distribution. -/
theorem exists_call_of_default (filled : (slotDefault slot).text ≠ "") :
    ∃ call, (slotDefault slot).call? = some call := by
  have each : ∀ text ∈ ["student_t(3, 0, 10)", "lkj(1)", "gamma(2, 0.1)", "gamma(0.01, 0.01)"],
      (Prior.callOfChars? (Text.stripBoth text.toList)).isSome = true := by decide
  have default : (slotDefault slot).text ∈
      ["student_t(3, 0, 10)", "lkj(1)", "gamma(2, 0.1)", "gamma(0.01, 0.01)"] := by
    unfold slotDefault classDefault at filled ⊢
    split_ifs at filled ⊢ <;> simp_all
  exact Option.isSome_iff_exists.mp (each _ default)

/-- A prior in effect is the call of a distribution. -/
theorem exists_call (checked : ∀ prior ∈ given, ∃ text slot, Prior.set text slot = .ok prior)
    (found : effective given slot = some prior) : ∃ call, prior.call? = some call := by
  have filled := text_ne_of_effective found
  obtain ⟨s, rfl⟩ := exists_onSlot_of_find? found
  rcases onSlot_cases given s with own | default
  · obtain ⟨text, slot, made⟩ := checked _ own
    exact exists_call_of_set made filled
  · rw [default] at filled ⊢
    exact exists_call_of_default filled

end Merge

end Priors

end Multilevel
