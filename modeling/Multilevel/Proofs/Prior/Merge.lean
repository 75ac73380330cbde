import Multilevel.Prior.Basic
import Multilevel.Proofs.Formula.Reading
import Multilevel.Proofs.Outcome
import Multilevel.Proofs.Prior.Effective
import Multilevel.Proofs.Prior.Slots

/-!
# Merging priors

The text of a prior is blank, or the call of a distribution with any blanks around it: a name, and
arguments between the first parenthesis and the one at the very end (`SpellsCall`). Main statement:
a prior is accepted exactly if its class is known, its text is of one of these two kinds, and the
distribution of correlation matrices stands for those alone (`Prior.validate_eq_ok_iff`).

The priors of a caller are accepted exactly if each is well-formed, stands on a slot of the model,
and is the only one there; if draws come from the priors alone, all coefficients that the
observations share must have a prior in effect (`Priors.AreAcceptable`). What comes out has one
prior on each slot, the caller's or the default, in the order of the slots and whatever the order
of the caller (`Priors.merges_acceptable`).
-/
namespace Multilevel

open Text (AreBlank isBlank stripBoth stripStart)

/-- Whether a text is the name of a distribution: letters, digits and underscores of the first 128
characters, with no digit at the front. -/
def IsDistributionName (name : String) : Prop :=
  ∃ c rest, name.toList = c :: rest ∧ Prior.startsCall c = true ∧
    ∀ d ∈ rest, Prior.continuesCall d = true

/-- Whether characters spell a call: a name, blanks, and arguments in parentheses that stand on one
line. -/
structure SpellsCall (chars : List Char) (name : String) (arguments : List Char) : Prop where
  /-- The distribution has a name. -/
  named : IsDistributionName name
  /-- The arguments hold no line feed. -/
  line : '\n' ∉ arguments
  /-- Between the name and the parenthesis may stand blanks; behind the other one stands nothing. -/
  spelled : ∃ blanks, AreBlank blanks ∧
    chars = name.toList ++ (blanks ++ '(' :: (arguments ++ [')']))

namespace Prior

/-- Blanks continue no name of a distribution. -/
theorem continuesCall_of_isBlank {c : Char} (blank : isBlank c = true) :
    continuesCall c = false := by
  have other := Formula.continuesName_of_isBlank c blank
  simp only [Formula.continuesName, Bool.or_eq_false_iff] at other
  simp [continuesCall, other]

/-- A name ends in front of blanks and a parenthesis. -/
theorem stopsAt_call {blanks : List Char} (blank : AreBlank blanks) (rest : List Char) :
    Formula.StopsAt continuesCall (blanks ++ '(' :: rest) := by
  intro c here
  cases blanks with
  | nil =>
    obtain rfl : '(' = c := by simpa using here
    decide
  | cons d more =>
    obtain rfl : d = c := by simpa using here
    exact continuesCall_of_isBlank (blank d (by simp))

/-- Characters are read as a call exactly if they spell one. -/
theorem callOfChars?_eq_some_iff {chars : List Char} {call : DistributionCall} :
    callOfChars? chars = some call ↔ ∃ arguments, SpellsCall chars call.name arguments ∧
      call.arguments = String.ofList (stripBoth arguments) := by
  constructor
  · intro read
    unfold callOfChars? at read
    split at read
    · cases read
    rename_i c rest
    split at read
    · rename_i starts
      dsimp only at read
      split at read
      · rename_i body opened
        split at read
        · rename_i closed
          obtain rfl := Option.some.inj read
          simp only [Bool.and_eq_true, decide_eq_true_eq, Bool.not_eq_true',
            List.contains_eq_mem, decide_eq_false_iff_not] at closed
          obtain ⟨blanks, blank, split⟩ := Text.exists_stripStart (rest.dropWhile continuesCall)
          refine ⟨body.dropLast, ⟨⟨c, rest.takeWhile continuesCall, ?_, starts, ?_⟩, closed.2,
            blanks, blank, ?_⟩, rfl⟩
          · rw [String.toList_ofList]
          · exact fun d mem => List.mem_takeWhile_imp mem
          · rw [String.toList_ofList, List.dropLast_append_getLast? _ closed.1, ← opened, ← split,
              List.cons_append, List.takeWhile_append_dropWhile]
        · cases read
      · cases read
    · cases read
  · rintro ⟨arguments, ⟨⟨c, rest, name, starts, continues⟩, line, blanks, blank, rfl⟩, stripped⟩
    have run := Formula.run_append continues (stopsAt_call blank (arguments ++ [')']))
    have opened : stripStart (blanks ++ '(' :: (arguments ++ [')'])) =
        '(' :: (arguments ++ [')']) := by
      rw [Text.stripStart_append blank]
      rfl
    have closed : (arguments ++ [')']).getLast? = some ')' := by simp
    rw [name, List.cons_append, callOfChars?, if_pos starts, run.1, run.2]
    simp only [opened, closed, List.dropLast_concat, decide_true, Bool.true_and,
      List.contains_eq_mem, line, decide_false, Bool.not_false, ↓reduceIte]
    rw [← name, ← stripped, String.ofList_toList]

/-- Whether the text of a prior is blank, which stands for no prior. -/
def IsFlat (prior : Prior) : Prop := AreBlank prior.text.toList

/-- A flat prior, or the call of a distribution that suits the class of its slot. -/
structure IsWellFormed (prior : Prior) : Prop where
  /-- The class of parameters is known. -/
  known : prior.slot.className ∈ parameterClasses
  /-- The text is blank or a call, of the distribution of correlation matrices exactly for those. -/
  spelled : prior.IsFlat ∨ ∃ name arguments, SpellsCall (stripBoth prior.text.toList) name arguments ∧
    (name = "lkj" ↔ prior.slot.className = "cor")

/-- The call that a prior is. -/
theorem call?_eq_some_iff {prior : Prior} {call : DistributionCall} :
    prior.call? = some call ↔
      ∃ arguments, SpellsCall (stripBoth prior.text.toList) call.name arguments ∧
        call.arguments = String.ofList (stripBoth arguments) :=
  callOfChars?_eq_some_iff

/-- A prior is accepted exactly if it is well-formed. -/
theorem validate_eq_ok_iff {prior : Prior} : prior.validate = .ok () ↔ prior.IsWellFormed := by
  have flat : (stripBoth prior.text.toList).isEmpty = true ↔ prior.IsFlat := by
    rw [List.isEmpty_iff, Text.stripBoth_eq_nil_iff, IsFlat]
  have agree (className name : String) : ¬((className == "cor") != (name == "lkj")) = true ↔
      (name = "lkj" ↔ className = "cor") := by
    rw [bne_iff_ne, not_ne_iff, Bool.eq_iff_iff, beq_iff_eq, beq_iff_eq]
    exact Iff.comm
  simp only [validate, ↓throw_bind, ite_throw_eq_ok]
  rw [Bool.not_eq_true, Bool.not_eq_false', List.contains_iff_mem]
  by_cases blank : (stripBoth prior.text.toList).isEmpty = true
  · simp only [blank, Bool.not_true, Bool.false_eq_true, ↓reduceIte]
    exact ⟨fun known => ⟨known.1, .inl (flat.mp blank)⟩, fun formed => ⟨formed.known, rfl⟩⟩
  · simp only [blank, Bool.not_false, ↓reduceIte, ite_throw_eq_ok, agree]
    constructor
    · rintro ⟨known, called, suits⟩
      rw [Bool.not_eq_true, Option.isNone_eq_false_iff, Option.isSome_iff_exists] at called
      obtain ⟨call, called⟩ := called
      obtain ⟨arguments, spells, _⟩ := call?_eq_some_iff.mp called
      refine ⟨known, .inr ⟨call.name, arguments, spells, ?_⟩⟩
      rw [distribution, called] at suits
      exact suits.1
    · rintro ⟨known, unblank | ⟨name, arguments, spells, suits⟩⟩
      · exact absurd (flat.mpr unblank) blank
      · have called : prior.call? = some ⟨name, String.ofList (stripBoth arguments)⟩ :=
          call?_eq_some_iff.mpr ⟨arguments, spells, rfl⟩
        refine ⟨known, by simp [called], ?_⟩
        rw [distribution, called]
        exact ⟨suits, rfl⟩

end Prior

namespace Priors

variable {tree : TermTree} {given other merged priors : List Prior} {used : List Slot}
  {slot : Slot} {prior : Prior} {sample : SamplePrior}

/-- Whether the priors of a caller suit a model. -/
structure AreAcceptable (tree : TermTree) (given : List Prior) (sample : SamplePrior) : Prop where
  /-- Each is blank or the call of a distribution that suits its class. -/
  wellFormed : ∀ prior ∈ given, prior.IsWellFormed
  /-- No two stand on one slot. -/
  distinct : (given.map Prior.slot).Nodup
  /-- They stand on slots of the model. -/
  known : ∀ prior ∈ given, prior.slot ∈ slots tree
  /-- If draws come from the priors alone, each coefficient has a prior in effect. -/
  proper : sample = .only →
    (∀ coefficient ∈ tree.population, (effective given ⟨"b", coefficient, ""⟩).isSome = true) ∧
      (tree.intercept = true → (effective given ⟨"Intercept", "", ""⟩).isSome = true)

/-- A prior stands on a slot exactly if one is found there. -/
theorem isSome_get?_iff : (get? merged slot).isSome = true ↔ slot ∈ merged.map Prior.slot := by
  simp [get?, List.find?_isSome]

/-- No prior is found on a slot where none stands. -/
theorem get?_eq_none (free : slot ∉ merged.map Prior.slot) : get? merged slot = none := by
  rw [← Option.not_isSome_iff_eq_none, isSome_get?_iff]
  exact free

/-- A prior in its place leaves the slots as they are. -/
theorem map_slot_place : (place merged prior).map Prior.slot = merged.map Prior.slot := by
  rw [place, List.map_map]
  refine List.map_congr_left fun old _ => ?_
  by_cases own : old.slot = prior.slot <;> simp [own]

/-- The priors on which those of a caller are placed one after the other. -/
theorem map_place {rest : List Prior} (free : prior.slot ∉ rest.map Prior.slot) :
    ((place merged prior).map fun old => (get? rest old.slot).getD old) =
      merged.map fun old => (get? (prior :: rest) old.slot).getD old := by
  rw [place, List.map_map]
  refine List.map_congr_left fun old _ => ?_
  rw [Function.comp_apply, get?_cons]
  by_cases own : old.slot = prior.slot
  · rw [if_pos own, if_pos own.symm, get?_eq_none free]
    rfl
  · rw [if_neg own, if_neg fun same => own same.symm]

/-- Priors are placed exactly if each is well-formed and has a slot of its own among those that have
not been used. -/
theorem placeAll_eq_ok_iff : placeAll given used merged = .ok priors ↔
    (∀ prior ∈ given, prior.IsWellFormed ∧ prior.slot ∉ used ∧
      prior.slot ∈ merged.map Prior.slot) ∧
    (given.map Prior.slot).Nodup ∧
    priors = merged.map fun old => (get? given old.slot).getD old := by
  induction given generalizing used merged with
  | nil => simp [placeAll, get?, eq_comm]
  | cons first rest ih =>
    rw [placeAll_cons_eq_ok, Prior.validate_eq_ok_iff, isSome_get?_iff, ih, map_slot_place,
      List.map_cons, List.nodup_cons, List.forall_mem_cons]
    constructor
    · rintro ⟨formed, free, listed, others, distinct, rfl⟩
      have apart : first.slot ∉ rest.map Prior.slot := by
        intro mem
        obtain ⟨later, inside, same⟩ := List.mem_map.mp mem
        exact (others later inside).2.1 (same ▸ List.mem_cons_self)
      refine ⟨⟨⟨formed, free, listed⟩, fun prior mem => ?_⟩, ⟨apart, distinct⟩, map_place apart⟩
      obtain ⟨formed, free, listed⟩ := others prior mem
      exact ⟨formed, fun before => free (List.mem_cons_of_mem _ before), listed⟩
    · rintro ⟨⟨⟨formed, free, listed⟩, others⟩, ⟨apart, distinct⟩, rfl⟩
      refine ⟨formed, free, listed, fun prior mem => ?_, distinct, (map_place apart).symm⟩
      obtain ⟨formed, free, listed⟩ := others prior mem
      refine ⟨formed, fun before => ?_, listed⟩
      rcases List.mem_cons.mp before with same | earlier
      · exact apart (same ▸ List.mem_map_of_mem mem)
      · exact free earlier

/-- The default priors stand on the slots of a model. -/
theorem map_slot_defaults : (defaults tree).map Prior.slot = slots tree := by
  rw [defaults, List.map_map]
  exact List.map_id _

/-- The priors on all slots once those of a caller are in their places. -/
theorem map_defaults : ((defaults tree).map fun old => (get? given old.slot).getD old) =
    (slots tree).map (onSlot given) := by
  rw [defaults, List.map_map]
  rfl

/-- Some parameter is without a prior exactly if none is in effect for it. -/
theorem withoutPrior_eq_nil_iff (accepted : merge tree given .no = .ok priors) :
    withoutPrior tree priors = [] ↔
      (∀ coefficient ∈ tree.population, (effective given ⟨"b", coefficient, ""⟩).isSome = true) ∧
        (tree.intercept = true → (effective given ⟨"Intercept", "", ""⟩).isSome = true) := by
  have empty {slot : Slot} (mem : slot ∈ slots tree) :
      (lookup priors slot).text.isEmpty = false ↔ (effective given slot).isSome = true := by
    rw [lookup_merge accepted mem]
    cases found : effective given slot with
    | none => simp
    | some prior => simpa using text_ne_of_effective found
  have intercept (there : tree.intercept = true) : (⟨"Intercept", "", ""⟩ : Slot) ∈ slots tree := by
    simp [slots, there]
  rw [withoutPrior, List.append_eq_nil_iff, List.map_eq_nil_iff, List.filter_eq_nil_iff]
  refine and_congr (forall₂_congr fun coefficient mem => ?_) ?_
  · rw [Bool.not_eq_true, empty (mem_slots_of_mem_population mem)]
  · cases there : tree.intercept with
    | false => simp
    | true =>
      rw [← empty (intercept there)]
      cases (lookup priors ⟨"Intercept", "", ""⟩).text.isEmpty <;> simp

/-- Priors are accepted exactly if they suit the model, and then each slot has the caller's prior or
the default. -/
theorem merge_eq_ok_iff : merge tree given sample = .ok priors ↔
    AreAcceptable tree given sample ∧ priors = (slots tree).map (onSlot given) := by
  have placed : placeAll given [] (defaults tree) = .ok priors ↔
      ((∀ prior ∈ given, prior.IsWellFormed ∧ prior.slot ∈ slots tree) ∧
        (given.map Prior.slot).Nodup) ∧ priors = (slots tree).map (onSlot given) := by
    rw [placeAll_eq_ok_iff, map_slot_defaults, map_defaults]
    simp [and_assoc]
  have unasked : merge tree given .no = placeAll given [] (defaults tree) := by
    rw [merge]
    cases placeAll given [] (defaults tree) <;> rfl
  by_cases only : sample = .only
  · subst only
    have asked : merge tree given .only = .ok priors ↔
        merge tree given .no = .ok priors ∧ withoutPrior tree priors = [] := by
      rw [unasked]
      simp only [merge, bind_eq_ok, ↓reduceIte, ↓throw_bind, ite_throw_eq_ok, pure_eq_ok]
      constructor
      · rintro ⟨merged, own, none, same⟩
        exact ⟨same ▸ own, by simpa [same] using none⟩
      · rintro ⟨own, none⟩
        exact ⟨priors, own, by simpa using none, rfl⟩
    rw [asked]
    constructor
    · rintro ⟨accepted, none⟩
      obtain ⟨⟨each, distinct⟩, same⟩ := placed.mp (unasked ▸ accepted)
      exact ⟨⟨fun prior mem => (each prior mem).1, distinct, fun prior mem => (each prior mem).2,
        fun _ => (withoutPrior_eq_nil_iff accepted).mp none⟩, same⟩
    · rintro ⟨suits, same⟩
      have accepted : merge tree given .no = .ok priors := unasked ▸ placed.mpr
        ⟨⟨fun prior mem => ⟨suits.wellFormed prior mem, suits.known prior mem⟩, suits.distinct⟩,
          same⟩
      exact ⟨accepted, (withoutPrior_eq_nil_iff accepted).mpr (suits.proper rfl)⟩
  · have plain : merge tree given sample = placeAll given [] (defaults tree) := by
      rw [merge]
      simp only [only, ↓reduceIte]
      cases placeAll given [] (defaults tree) <;> rfl
    rw [plain, placed]
    constructor
    · rintro ⟨⟨each, distinct⟩, same⟩
      exact ⟨⟨fun prior mem => (each prior mem).1, distinct, fun prior mem => (each prior mem).2,
        fun asked => absurd asked only⟩, same⟩
    · rintro ⟨suits, same⟩
      exact ⟨⟨fun prior mem => ⟨suits.wellFormed prior mem, suits.known prior mem⟩,
        suits.distinct⟩, same⟩

/-- On distinct slots the order of priors does not matter to what is found. -/
theorem get?_perm (distinct : (given.map Prior.slot).Nodup) (perm : given.Perm other) :
    get? given slot = get? other slot := by
  have found {given : List Prior} (distinct : (given.map Prior.slot).Nodup) (prior : Prior) :
      get? given slot = some prior ↔ prior ∈ given ∧ prior.slot = slot := by
    refine ⟨mem_of_get?, fun ⟨mem, own⟩ => ?_⟩
    have standing : slot ∈ given.map Prior.slot := List.mem_map.mpr ⟨prior, mem, own⟩
    obtain ⟨first, here⟩ := Option.isSome_iff_exists.mp (isSome_get?_iff.mpr standing)
    have listed := mem_of_get? here
    rw [here, List.inj_on_of_nodup_map distinct listed.1 mem (listed.2.trans own.symm)]
  refine Option.ext fun prior => ?_
  rw [found distinct, found ((perm.map Prior.slot).nodup_iff.mp distinct), perm.mem_iff]

/-- Whether priors suit a model does not depend on their order, nor does what stands on a slot. -/
theorem AreAcceptable.perm (suits : AreAcceptable tree given sample) (perm : given.Perm other) :
    AreAcceptable tree other sample ∧ onSlot given = onSlot other := by
  have same : onSlot given = onSlot other :=
    funext fun slot => by rw [onSlot, onSlot, get?_perm suits.distinct perm]
  have effects : effective given = effective other :=
    funext fun slot => by rw [effective, effective, same]
  exact ⟨⟨fun prior mem => suits.wellFormed prior (perm.mem_iff.mpr mem),
    (perm.map Prior.slot).nodup_iff.mp suits.distinct,
    fun prior mem => suits.known prior (perm.mem_iff.mpr mem), effects ▸ suits.proper⟩, same⟩

/-- The slots of a model are distinct. Priors that suit the model are merged with its defaults, slot
by slot and whatever their order, and all others are refused. -/
theorem merges_acceptable {formula : Formula} {family : Family}
    {autocorrelation : Option Autocorrelation} {frame : Frame} {covariances : List String}
    {tree : TermTree} (named : formula.IsNamed)
    (built : TermTree.build formula family autocorrelation frame covariances = .ok tree)
    (given : List Prior) (sample : SamplePrior) :
    (slots tree).Nodup ∧
    ((slots tree).map (onSlot given)).map Prior.slot = slots tree ∧
    (AreAcceptable tree given sample → ∀ other, given.Perm other →
      merge tree other sample = .ok ((slots tree).map (onSlot given))) ∧
    (¬AreAcceptable tree given sample → ∃ e, merge tree given sample = .error e) := by
  refine ⟨nodup_slots named built, ?_, fun suits other perm => ?_, fun unsuited => ?_⟩
  · rw [List.map_map]
    refine (List.map_congr_left fun slot _ => ?_).trans (List.map_id _)
    rw [Function.comp_apply, onSlot]
    cases found : get? given slot with
    | none => rfl
    | some prior => exact (mem_of_get? found).2
  · obtain ⟨suited, same⟩ := suits.perm perm
    rw [same]
    exact merge_eq_ok_iff.mpr ⟨suited, rfl⟩
  · cases outcome : merge tree given sample with
    | ok priors => exact absurd (merge_eq_ok_iff.mp outcome).1 unsuited
    | error e => exact ⟨e, rfl⟩

/-- A slope that varies with a group together with the intercept. -/
def correlatedFormula : Formula :=
  ⟨"y", none, true, [⟨["x"]⟩], [⟨"g", true, [⟨["x"]⟩], true⟩]⟩

/-- A small table for it. -/
def correlatedTable : Frame := ⟨3, [("y", .int #[2, 3, 5].toVector), ("x", .int #[0, 1, 4].toVector),
  ("g", .factor ["north", "south"] #[some 0, some 1, some 0].toVector)]⟩

/-- A prior for the correlations, with blanks, one for all slopes, and a blank one. -/
def correlatedPriors : List Prior :=
  [⟨" lkj (2)\n", ⟨"cor", "", "g"⟩⟩, ⟨"normal(0, 1)", ⟨"b", "", ""⟩⟩, ⟨"", ⟨"b", "x", ""⟩⟩]

/-- The priors of the small model are merged with its defaults in either order, also if draws come
from them alone. -/
theorem correlated_merged : ∃ tree,
    correlatedFormula.IsNamed ∧
    TermTree.build correlatedFormula .gaussian none correlatedTable [] = .ok tree ∧
    (slots tree).Nodup ∧
    AreAcceptable tree correlatedPriors .only ∧
    merge tree correlatedPriors.reverse .only =
      .ok ((slots tree).map (onSlot correlatedPriors)) := by
  obtain ⟨tree, built, accepted⟩ := exists_of_any
    (TermTree.build correlatedFormula .gaussian none correlatedTable [])
    (fun tree => (merge tree correlatedPriors .only).isOk) (by decide +kernel)
  obtain ⟨priors, accepted⟩ := exists_of_isOk accepted
  have name : ∀ name ∈ ["x", "g"], IsVariableName name := by
    unfold IsVariableName
    decide
  have slope : Term.IsNamed ⟨["x"]⟩ :=
    ⟨by simp, List.forall_mem_singleton.mpr (name "x" (by simp))⟩
  have named : correlatedFormula.IsNamed :=
    ⟨List.forall_mem_singleton.mpr slope, List.forall_mem_singleton.mpr
      ⟨.inl rfl, List.forall_mem_singleton.mpr slope, name "g" (by simp)⟩⟩
  have suits := (merge_eq_ok_iff.mp accepted).1
  obtain ⟨distinct, -, merged, -⟩ := merges_acceptable named built correlatedPriors .only
  exact ⟨tree, named, built, distinct, suits, merged suits _ (List.reverse_perm _).symm⟩

end Priors

end Multilevel
