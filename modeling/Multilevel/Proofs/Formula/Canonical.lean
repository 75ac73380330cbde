import Multilevel.Proofs.Formula.Reading

/-!
# Canonical texts

The canonical text of a formula that was read is read as the same formula (`read_text`), so equal
formulas and equal canonical texts are the same thing. Both the reader and the text meet at the
grammar: every formula that was read has a tree of the shape its text shows (`canonical`).
-/
namespace Multilevel

open Text (AreBlank Spaced)

namespace Formula

/-- A formula that some text is read as. -/
structure IsReadable (formula : Formula) : Prop where
  /-- The response has a name. -/
  response : IsVariableName formula.response
  /-- The number of trials has a name. -/
  trials : ∀ trials ∈ formula.trials, IsVariableName trials
  /-- The terms are named. -/
  named : formula.IsNamed
  /-- There are no two terms alike. -/
  distinct : formula.terms.Nodup
  /-- There are no two slopes alike in a group-level term. -/
  slopes : ∀ term ∈ formula.groupTerms, term.terms.Nodup

/-- What was read can be read. -/
theorem isReadable_of_read {text : String} {formula : Formula} (done : read text = .ok formula) :
    formula.IsReadable := by
  have named := read_eq_ok done
  obtain ⟨written, formed, _, rfl⟩ := read_eq_ok_iff.mp done
  refine ⟨formed.response, formed.trials, named, nodup_eraseDups _, fun term mem => ?_⟩
  obtain ⟨⟨sign, summand⟩, _, here⟩ := List.mem_flatMap.mp mem
  cases summand with
  | group nested =>
    obtain rfl := List.mem_singleton.mp here
    exact nodup_eraseDups _
  | zero | one | interaction | crossing => cases here

/-- A term as a summand of its names. -/
def ofTerm (γ : Type) (term : Term) : Sign × Summand γ :=
  (.plus, .interaction (term.names.headD "") term.names.tail)

/-- The intercept and the terms of a canonical text. -/
def canonicalSide (γ : Type) (intercept : Bool) (terms : List Term) : Side γ :=
  (.plus, if intercept then .one else .zero) :: terms.map (ofTerm γ)

/-- A group-level term as its canonical text shows it. -/
def canonicalGroup (term : GroupTerm) : Nested :=
  ⟨canonicalSide Empty term.intercept term.terms, term.correlated, term.group⟩

/-- A formula as its canonical text shows it. -/
def canonical (formula : Formula) : Written :=
  ⟨formula.response, formula.trials, canonicalSide Nested formula.intercept formula.terms ++
    formula.groupTerms.map fun term => (.plus, .group (canonicalGroup term))⟩

section Meaning

variable {γ : Type}

/-- A named term is the summand of its names. -/
theorem headD_cons_tail {term : Term} (named : term.IsNamed) :
    term.names.headD "" :: term.names.tail = term.names := by
  cases split : term.names with
  | nil => exact absurd split named.nonempty
  | cons first rest => rfl

/-- The terms of summands of names. -/
theorem flatMap_ofTerm {terms : List Term} (named : ∀ term ∈ terms, term.IsNamed) :
    (terms.map (ofTerm γ)).flatMap (fun summand => summand.2.terms) = terms := by
  have each : ∀ term ∈ terms, (ofTerm γ term).2.terms = [term] := fun term mem =>
    congrArg (fun names => [Term.mk names]) (headD_cons_tail (named term mem))
  rw [List.flatMap_map, List.flatMap_congr each, List.flatMap_singleton']

/-- The first summand of a canonical text decides about the intercept if the others say nothing. -/
theorem intercept_canonicalSide (intercept : Bool) (terms : List Term) {more : Side γ}
    (none : ∀ summand ∈ more, Summand.intercept? summand = none) :
    Side.intercept (canonicalSide γ intercept terms ++ more) = intercept := by
  have silent : (terms.map (ofTerm γ) ++ more).filterMap Summand.intercept? = [] := by
    rw [List.filterMap_eq_nil_iff, List.forall_mem_append, List.forall_mem_map]
    exact ⟨fun _ _ => rfl, none⟩
  rw [Side.intercept, canonicalSide, List.cons_append]
  cases intercept <;> simp [Summand.intercept?, silent]

/-- The terms of a canonical text are those of the formula if the other summands have none. -/
theorem terms_canonicalSide (intercept : Bool) {terms : List Term} {more : Side γ}
    (named : ∀ term ∈ terms, term.IsNamed) (distinct : terms.Nodup)
    (none : ∀ summand ∈ more, summand.2.terms = []) :
    Side.terms (canonicalSide γ intercept terms ++ more) = terms := by
  have last : more.flatMap (fun summand => summand.2.terms) = [] := List.flatMap_eq_nil_iff.mpr none
  have front : (if intercept then Summand.one else Summand.zero : Summand γ).terms = [] := by
    cases intercept <;> rfl
  rw [Side.terms, canonicalSide, List.cons_append, List.flatMap_cons, List.flatMap_append,
    flatMap_ofTerm named, last, front, List.append_nil, List.nil_append,
    eraseDups_of_nodup distinct]

variable [Parenthesized γ]

/-- The summands of a canonical text are as they should be. -/
theorem isFormed_canonicalSide (intercept : Bool) {terms : List Term} {more : Side γ}
    (named : ∀ term ∈ terms, term.IsNamed)
    (others : ∀ summand ∈ more, summand.2.IsFormed summand.1) :
    Side.IsFormed (canonicalSide γ intercept terms ++ more) := by
  refine ⟨by simp [canonicalSide], ?_⟩
  rw [canonicalSide, List.cons_append, List.forall_mem_cons, List.forall_mem_append,
    List.forall_mem_map]
  refine ⟨?_, fun term mem => ?_, others⟩
  · cases intercept <;>
      exact ⟨by rintro ⟨⟩, by simp [Summand.names], by rintro _ ⟨⟩⟩
  · refine ⟨by rintro ⟨⟩, ?_, by rintro _ ⟨⟩⟩
    have names : (ofTerm γ term).2.names = term.names := headD_cons_tail (named term mem)
    rw [names]
    exact (named term mem).named

/-- A canonical group-level term is as it should be and says what it should. -/
theorem canonicalGroup_spec {term : GroupTerm} (named : term.IsNamed) (distinct : term.terms.Nodup) :
    (canonicalGroup term).IsFormed ∧ (canonicalGroup term).term = term := by
  have intercept : (canonicalSide Empty term.intercept term.terms).intercept = term.intercept := by
    simpa using @intercept_canonicalSide Empty term.intercept term.terms [] nofun
  have terms : (canonicalSide Empty term.intercept term.terms).terms = term.terms := by
    simpa using @terms_canonicalSide Empty term.intercept term.terms [] named.terms distinct nofun
  have formed : (canonicalSide Empty term.intercept term.terms).IsFormed := by
    simpa using @isFormed_canonicalSide Empty _ term.intercept term.terms [] named.terms nofun
  refine ⟨⟨formed, named.group, ?_⟩, ?_⟩
  · rw [canonicalGroup, intercept, terms]
    exact named.effects
  · rw [Nested.term, canonicalGroup, intercept, terms]

/-- The canonical tree of a formula that can be read is as it should be and says what it should. -/
theorem canonical_spec {formula : Formula} (readable : formula.IsReadable) :
    formula.canonical.IsFormed ∧ formula.canonical.formula = formula := by
  have groups := fun term mem => canonicalGroup_spec (readable.named.groupTerms term mem)
    (readable.slopes term mem)
  have intercept : formula.canonical.side.intercept = formula.intercept :=
    intercept_canonicalSide _ _ (List.forall_mem_map.mpr fun _ _ => rfl)
  have terms : formula.canonical.side.terms = formula.terms :=
    terms_canonicalSide _ readable.named.terms readable.distinct
      (List.forall_mem_map.mpr fun _ _ => rfl)
  have groupTerms : formula.canonical.side.groupTerms = formula.groupTerms := by
    have front : (canonicalSide Nested formula.intercept formula.terms).groupTerms = [] := by
      rw [Side.groupTerms, List.flatMap_eq_nil_iff, canonicalSide, List.forall_mem_cons,
        List.forall_mem_map]
      exact ⟨by cases formula.intercept <;> rfl, fun _ _ => rfl⟩
    have each : ∀ term ∈ formula.groupTerms,
        (Summand.group (canonicalGroup term)).groupTerms = [term] := fun term mem =>
      congrArg (fun term => [term]) (groups term mem).2
    rw [canonical, Side.groupTerms, List.flatMap_append, ← Side.groupTerms, front,
      List.nil_append, List.flatMap_map, List.flatMap_congr each, List.flatMap_singleton']
  refine ⟨⟨readable.response, readable.trials, ?_⟩, ?_⟩
  · refine isFormed_canonicalSide _ readable.named.terms (List.forall_mem_map.mpr fun term mem => ?_)
    refine ⟨by rintro ⟨⟩, by simp [Summand.names], ?_⟩
    rintro _ ⟨⟩
    exact (groups term mem).1
  · rw [Written.formula, intercept, terms, groupTerms]
    rfl

end Meaning

section Spelling

variable {γ : Type} [Parenthesized γ]

/-- Whether a text is one of a summand with a plus in front of it. -/
def IsAdded (summand : Sign × Summand γ) (text : String) : Prop :=
  summand.1 = .plus ∧ Spaced summand.2.tokens text.toList

/-- Blanks around a text are blanks. -/
theorem areBlank_singleton : AreBlank [' '] := List.forall_mem_singleton.mpr (by decide)

/-- A sum of texts, as characters. -/
theorem toList_intercalate_cons (text : String) (more : List String) :
    (" + ".intercalate (text :: more)).toList =
      text.toList ++ more.flatMap fun text => ' ' :: '+' :: ' ' :: text.toList := by
  induction more generalizing text with
  | nil => simp
  | cons next more ih =>
    rw [String.intercalate_cons_cons, String.toList_append, String.toList_append, ih,
      List.flatMap_cons]
    simp

/-- Texts of summands with plus signs between them are a text of the right side. -/
theorem spaced_added {side : Side γ} {texts : List String} (some : side ≠ [])
    (each : List.Forall₂ IsAdded side texts) :
    Spaced side.tokens (" + ".intercalate texts).toList := by
  -- Behind the first summand each of them has its sign, with a blank before and after it.
  have behind {side : Side γ} {texts : List String} (each : List.Forall₂ IsAdded side texts) :
      Spaced side.signedTokens (texts.flatMap fun text => ' ' :: '+' :: ' ' :: text.toList) := by
    induction each with
    | nil => simp [Side.signedTokens, Spaced, AreBlank]
    | @cons summand text rest more here _ ih =>
      obtain ⟨sign, spelled⟩ := here
      have tokens : Side.signedTokens (summand :: rest) =
          [] ++ [summand.1.mark] :: (summand.2.tokens ++ Side.signedTokens rest) := rfl
      rw [tokens, sign, Text.spaced_mark, List.flatMap_cons]
      refine ⟨[' '], ' ' :: (text.toList ++ _), rfl, areBlank_singleton, ?_⟩
      exact (Text.spaced_append.mpr ⟨_, _, rfl, spelled, ih⟩).blanks_append areBlank_singleton
  cases each with
  | nil => exact absurd rfl some
  | @cons summand text rest more here others =>
    obtain ⟨sign, summand⟩ := summand
    obtain ⟨plus, spelled⟩ := here
    obtain rfl : sign = .plus := plus
    rw [toList_intercalate_cons]
    exact Text.spaced_append.mpr ⟨_, _, rfl, spelled, behind others⟩

/-- The text of an intercept. -/
theorem isAdded_intercept (intercept : Bool) :
    IsAdded (γ := γ) (.plus, if intercept then .one else .zero) (if intercept then "1" else "0") := by
  cases intercept
  · exact ⟨rfl, Text.spaced_self ['0']⟩
  · exact ⟨rfl, Text.spaced_self ['1']⟩

/-- The label of a term is a text of it. -/
theorem isAdded_ofTerm {term : Term} (named : term.IsNamed) : IsAdded (ofTerm γ term) term.label := by
  refine ⟨rfl, ?_⟩
  have tokens : (ofTerm γ term).2.tokens = Text.joined ':' term.names :=
    congrArg (Text.joined ':') (headD_cons_tail named)
  have each : List.Forall₂ (fun word piece => Spaced [word.toList] piece) term.names
      (term.names.map String.toList) :=
    List.forall₂_map_right_iff.mpr (List.forall₂_same.mpr fun _ _ => Text.spaced_self _)
  rw [tokens, Term.label, String.toList_intercalate]
  exact Text.spaced_intercalate named.nonempty each

/-- The texts of an intercept and of terms. -/
theorem isAdded_canonicalSide (intercept : Bool) {terms : List Term}
    (named : ∀ term ∈ terms, term.IsNamed) :
    List.Forall₂ IsAdded (canonicalSide γ intercept terms) (summands intercept terms) := by
  refine .cons (isAdded_intercept intercept) ?_
  rw [List.forall₂_map_right_iff, List.forall₂_map_left_iff]
  exact List.forall₂_same.mpr fun term mem => isAdded_ofTerm (named term mem)

/-- The canonical text of a group-level term is a text of it. -/
theorem isAdded_canonicalGroup {term : GroupTerm} (named : term.IsNamed) :
    IsAdded (.plus, .group (canonicalGroup term)) term.text := by
  refine ⟨rfl, ?_⟩
  have occupied : canonicalSide Empty term.intercept term.terms ≠ [] := by simp [canonicalSide]
  have effects := spaced_added occupied (isAdded_canonicalSide term.intercept named.terms)
  have split : term.text.toList = '(' ::
      (((" + ".intercalate (summands term.intercept term.terms)).toList ++ [' ']) ++
        ((canonicalGroup term).bar ++ ' ' :: term.group.toList) ++ [')']) := by
    rw [GroupTerm.text, Nested.bar, canonicalGroup]
    cases term.correlated <;> simp
  rw [split]
  exact Nested.spaced_iff.mpr ⟨_, _, rfl, effects.append_blanks areBlank_singleton,
    (Text.spaced_self term.group.toList).blanks_append areBlank_singleton⟩

/-- The text of a number of trials. -/
theorem spaced_trials (trials : String) :
    Spaced [['|'], "trials".toList, ['('], trials.toList, [')']]
      (" | trials(" ++ trials ++ ")").toList := by
  have split : (" | trials(" ++ trials ++ ")").toList = ([' '] ++ (['|'] ++ ([' '] ++
      ("trials".toList ++ ([] ++ (['('] ++ ([] ++ (trials.toList ++ ([] ++ ([')'] ++ [])))))))))) := by
    simp
  have none : AreBlank [] := nofun
  exact ⟨_, _, split, areBlank_singleton, _, _, rfl, areBlank_singleton, _, _, rfl, none, _, _, rfl,
    none, _, _, rfl, none, none⟩

/-- The canonical text of a formula is a text of it. -/
theorem spells_text {formula : Formula} (readable : formula.IsReadable) :
    formula.canonical.Spells formula.text := by
  have added : List.Forall₂ IsAdded formula.canonical.side
      (summands formula.intercept formula.terms ++ formula.groupTerms.map GroupTerm.text) := by
    refine List.rel_append (isAdded_canonicalSide _ readable.named.terms) ?_
    rw [List.forall₂_map_right_iff, List.forall₂_map_left_iff]
    exact List.forall₂_same.mpr fun term mem =>
      isAdded_canonicalGroup (readable.named.groupTerms term mem)
  have right := (spaced_added (by simp [canonical, canonicalSide]) added).blanks_append
    areBlank_singleton
  obtain ⟨response, trials, intercept, terms, groupTerms⟩ := formula
  rw [Written.Spells, Text.spaced_mark]
  cases trials with
  | none =>
    have left : Spaced [response.toList] (response.toList ++ [' ']) :=
      (Text.spaced_self _).append_blanks areBlank_singleton
    exact ⟨_, _, by simp [text], left, right⟩
  | some trials =>
    have left : Spaced (response.toList :: _) (response.toList ++ _) :=
      ⟨[], _, rfl, List.forall_mem_nil _, (spaced_trials trials).append_blanks areBlank_singleton⟩
    exact ⟨_, _, by simp [text], left, right⟩

end Spelling

/-- A formula that can be read is read from its canonical text. -/
theorem read_text {formula : Formula} (readable : formula.IsReadable) :
    read formula.text = .ok formula := by
  obtain ⟨formed, meaning⟩ := canonical_spec readable
  exact read_eq_ok_iff.mpr ⟨formula.canonical, formed, spells_text readable, meaning⟩

/-- Reading the canonical text of a formula that was read gives the formula back, and so the same
canonical text again. Two formulas that were read are equal exactly if their canonical texts are. -/
theorem read_canonical {first second : String} {formula other : Formula}
    (one : read first = .ok formula) (two : read second = .ok other) :
    read formula.text = .ok formula ∧ (read formula.text).map text = .ok formula.text ∧
      (formula = other ↔ formula.text = other.text) := by
  have again := read_text (isReadable_of_read one)
  refine ⟨again, by rw [again, Except.map], fun same => same ▸ rfl, fun same => ?_⟩
  have other := read_text (isReadable_of_read two)
  rw [← same, again] at other
  exact Except.ok.inj other

/-- Two spellings of one model: a crossing with blanks around its parts, and the terms of it with a
repeated one. -/
theorem spellings_read_canonical :
    let formula : Formula := ⟨"y", none, true, [⟨["x"]⟩, ⟨["z"]⟩, ⟨["x", "z"]⟩],
      [⟨"g", true, [⟨["x"]⟩], false⟩]⟩
    read " y ~ x * z + ( x || g ) " = .ok formula ∧ read "y~x+z+x:z+x+(1+x||g)" = .ok formula ∧
      read formula.text = .ok formula ∧ (read formula.text).map text = .ok formula.text := by
  intro formula
  have first : read " y ~ x * z + ( x || g ) " = .ok formula := by cbv
  have second : read "y~x+z+x:z+x+(1+x||g)" = .ok formula := by cbv
  obtain ⟨again, fixed, _⟩ := read_canonical first second
  exact ⟨first, second, again, fixed⟩

end Formula

end Multilevel
