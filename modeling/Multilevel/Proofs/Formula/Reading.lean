import Multilevel.Proofs.Formula.Grammar
import Multilevel.Proofs.Formula.Sides

/-!
# The language of formulas

A crossing of names stands for all choices of at least one of them, by size and then by the places
of the chosen names (`crossing_isCrossing`). The choices are made of places, of which there are no
two alike, and then read as names.

The reader accepts exactly the texts that spell a well-formed tree of the grammar, and returns the
formula that the tree stands for (`read_eq_ok_iff`). A text is cut at its tilde; the left side is
taken off token by token, and the right side is read with group-level terms in its parentheses,
which are cut at their bar.
-/
namespace Multilevel.Formula

variable {α β : Type}

/-- The choices are the parts of a list that have the number of elements asked for. -/
theorem mem_choices_iff {count : Nat} {as chosen : List α} :
    chosen ∈ choices count as ↔ chosen.Sublist as ∧ chosen.length = count := by
  induction count, as using choices.induct generalizing chosen with
  | case1 as =>
    rw [choices, List.mem_singleton, List.length_eq_zero_iff]
    exact ⟨fun none => ⟨none ▸ List.nil_sublist as, none⟩, And.right⟩
  | case2 count =>
    rw [choices, List.sublist_nil]
    constructor
    · intro mem
      cases mem
    · rintro ⟨rfl, size⟩
      cases size
  | case3 count a rest taken left =>
    rw [choices, List.mem_append, List.mem_map, left]
    constructor
    · rintro (⟨others, mem, rfl⟩ | ⟨inside, size⟩)
      · obtain ⟨inside, size⟩ := taken.mp mem
        exact ⟨inside.cons_cons a, by rw [List.length_cons, size]⟩
      · exact ⟨inside.cons a, size⟩
    · rintro ⟨inside, size⟩
      cases inside with
      | cons _ inside => exact .inr ⟨inside, size⟩
      | @cons_cons others _ _ inside =>
        exact .inl ⟨others, taken.mpr ⟨inside, by simpa using size⟩, rfl⟩

/-- The choices of ordered elements come in their order. -/
theorem pairwise_choices [LinearOrder α] {count : Nat} {as : List α}
    (ordered : as.Pairwise (· < ·)) : (choices count as).Pairwise (· < ·) := by
  induction count, as using choices.induct with
  | case1 as => simp [choices]
  | case2 count => simp [choices]
  | case3 count a rest taken left =>
    obtain ⟨least, others⟩ := List.pairwise_cons.mp ordered
    rw [choices, List.pairwise_append, List.pairwise_map]
    refine ⟨(taken others).imp fun less => List.cons_lt_cons_self.mpr less, left others, ?_⟩
    -- What is chosen with the least element comes before what is chosen without it.
    intro first mem second later
    obtain ⟨others, _, rfl⟩ := List.mem_map.mp mem
    obtain ⟨inside, size⟩ := mem_choices_iff.mp later
    cases second with
    | nil => cases size
    | cons b more => exact List.Lex.rel (least b (inside.subset List.mem_cons_self))

/-- Choices of elements are made of the choices of what these are made of. -/
theorem choices_map (f : α → β) (count : Nat) (as : List α) :
    choices count (as.map f) = (choices count as).map (List.map f) := by
  induction count, as using choices.induct with
  | case1 as => simp [choices]
  | case2 count => simp [choices]
  | case3 count a rest taken left => simp [choices, taken, left, Function.comp_def]

/-- The terms of a crossing are the choices of its names, by size and then by places. -/
theorem crossing_isCrossing (names : List String) : IsCrossing names (crossing names) := by
  have ordered : (List.finRange names.length).Pairwise (· < ·) := List.pairwise_lt_finRange _
  refine ⟨(List.range names.length).flatMap fun size =>
    choices (size + 1) (List.finRange names.length), ?_, ?_, ?_⟩
  · intro chosen
    simp only [List.mem_flatMap, List.mem_range, mem_choices_iff]
    constructor
    · rintro ⟨size, _, inside, length⟩
      exact ⟨List.ne_nil_of_length_pos (by omega), ordered.sublist inside⟩
    · rintro ⟨some, increasing⟩
      have distinct : chosen.Nodup := increasing.imp fun less => less.ne
      have inside : chosen.Sublist (List.finRange names.length) :=
        List.sublist_of_subperm_of_pairwise
          (List.subperm_of_subset distinct fun place _ => List.mem_finRange place) increasing ordered
      have most := inside.length_le
      have least := List.length_pos_iff.mpr some
      rw [List.length_finRange] at most
      exact ⟨chosen.length - 1, by omega, inside, by omega⟩
  · rw [List.pairwise_flatMap]
    constructor
    · intro size _
      refine (pairwise_choices ordered).imp_of_mem fun first second less => ?_
      rw [(mem_choices_iff.mp first).2, (mem_choices_iff.mp second).2]
      exact .inr ⟨rfl, less⟩
    · refine List.pairwise_lt_range.imp fun less first mem second later => ?_
      rw [(mem_choices_iff.mp mem).2, (mem_choices_iff.mp later).2]
      exact .inl (by omega)
  · have places : names = (List.finRange names.length).map names.get :=
      (List.map_get_finRange names).symm
    have each (size : Nat) : (choices (size + 1) names).map Term.mk =
        (choices (size + 1) (List.finRange names.length)).map fun chosen =>
          ⟨chosen.map names.get⟩ := by
      conv_lhs => rw [places, choices_map, List.map_map]
      rfl
    rw [crossing, List.map_flatMap]
    exact congrArg (List.flatMap · _) (funext each)

open Text (AreBlank IsSolid Spaced hasDouble isBlank splitOn splitOnDouble stripBoth stripStart)

section Tokens

variable {γ : Type} [Parenthesized γ] {readGroup : List Char → Except FormulaError GroupTerm}

/-- The tokens of a right side are signs and tokens of its summands. -/
theorem of_mem_tokens {side : Side γ} {token : List Char} (mem : token ∈ side.tokens) :
    (∃ summand ∈ side, token ∈ summand.2.tokens) ∨ ∃ sign : Sign, token = [sign.mark] := by
  have behind {side : Side γ} (mem : token ∈ side.signedTokens) :
      (∃ summand ∈ side, token ∈ summand.2.tokens) ∨ ∃ sign : Sign, token = [sign.mark] := by
    obtain ⟨summand, listed, here⟩ := List.mem_flatMap.mp mem
    rcases List.mem_cons.mp here with sign | inside
    · exact .inr ⟨summand.1, sign⟩
    · exact .inl ⟨summand, listed, inside⟩
  match side with
  | [] => exact behind mem
  | (.minus, summand) :: rest => exact behind mem
  | (.plus, summand) :: rest =>
    rcases List.mem_append.mp mem with here | later
    · exact .inl ⟨_, List.mem_cons_self, here⟩
    · exact (behind later).imp_left fun ⟨other, listed, inside⟩ =>
        ⟨other, List.mem_cons_of_mem _ listed, inside⟩

/-- The tokens of a right side as it should be are solid. -/
theorem Side.IsFormed.isSolid (reads : ReadsParenthesized γ readGroup) {side : Side γ}
    (formed : side.IsFormed) : ∀ token ∈ side.tokens, IsSolid token := by
  intro token mem
  rcases of_mem_tokens mem with ⟨summand, listed, here⟩ | ⟨sign, rfl⟩
  · exact (formed.summands summand listed).isSolid reads token here
  · exact ⟨by simp, List.forall_mem_singleton.mpr (by cases sign <;> decide)⟩

/-- A character that is in no name, is no mark between names and is in no term in parentheses is not
in a right side. -/
theorem Side.IsFormed.not_mem {side : Side γ} (formed : side.IsFormed) {c : Char}
    (other : continuesName c = false) (marks : c ≠ '+' ∧ c ≠ '-' ∧ c ≠ ':' ∧ c ≠ '*')
    (groups : ∀ written : γ, Parenthesized.IsFormed written →
      ∀ token ∈ Parenthesized.tokens written, c ∉ token) :
    ∀ token ∈ side.tokens, c ∉ token := by
  intro token mem
  rcases of_mem_tokens mem with ⟨⟨sign, summand⟩, listed, here⟩ | ⟨sign, rfl⟩
  · have own := formed.summands _ listed
    have words (worded : summand.names ≠ []) : c ∉ token := by
      rcases Summand.mem_tokens worded here with ⟨name, named, rfl⟩ | rfl | rfl
      · exact (own.names name named).not_mem other
      · simpa using marks.2.2.1
      · simpa using marks.2.2.2
    have digit {digit : Char} (continues : continuesName digit = true) : c ∉ [digit] := by
      rintro mem
      rw [List.mem_singleton.mp mem, continues] at other
      cases other
    match summand with
    | .zero => exact List.mem_singleton.mp here ▸ digit (by decide)
    | .one => exact List.mem_singleton.mp here ▸ digit (by decide)
    | .interaction first rest => exact words (by simp [Summand.names])
    | .crossing first second rest => exact words (by simp [Summand.names])
    | .group written => exact groups written (own.group written rfl) token here
  · cases sign
    · simpa [Sign.mark] using marks.1
    · simpa [Sign.mark] using marks.2.1

/-- A text does not have a character that is neither a blank nor in one of its tokens. -/
theorem not_mem_of_spaced {tokens : List (List Char)} {chars : List Char}
    (spaced : Spaced tokens chars) {c : Char} (solid : isBlank c = false)
    (free : ∀ token ∈ tokens, c ∉ token) : c ∉ chars := by
  intro mem
  rcases spaced.mem_cases mem with blank | ⟨token, listed, here⟩
  · rw [solid] at blank
    cases blank
  · exact free token listed here

/-- Nothing is read off blanks. -/
theorem readSide_of_areBlank {chars : List Char} (blank : AreBlank chars) :
    readSide readGroup chars = .error (.dangling (String.ofList chars)) := by
  have closed : IsWhole chars := isWhole_of_plain fun c mem => plain_of_isBlank (blank c mem)
  have last := @cutSummands_whole chars chars [] .plus [] closed []
  have none : (stripBoth chars).isEmpty = true := by
    rw [Text.stripBoth_eq_nil_iff.mpr blank]
    rfl
  rw [List.append_nil, List.append_nil] at last
  simp [readSide, readSummands, last, cutSummands, none, bind, Except.bind]

end Tokens

section Groups

/-- The tokens of what varies have no bar and no parenthesis. -/
theorem Nested.free {nested : Nested} (formed : nested.IsFormed) {c : Char}
    (other : c = '|' ∨ c = '(' ∨ c = ')') :
    ∀ token ∈ nested.side.tokens ++ [nested.factor.toList], c ∉ token := by
  have unnamed : continuesName c = false := by rcases other with rfl | rfl | rfl <;> decide
  rw [List.forall_mem_append, List.forall_mem_singleton]
  refine ⟨formed.side.not_mem unnamed ?_ nofun, formed.factor.not_mem unnamed⟩
  rcases other with rfl | rfl | rfl <;> decide

/-- The bar of a group-level term is solid. -/
theorem Nested.isSolid_bar (nested : Nested) : IsSolid nested.bar := by
  unfold Nested.bar
  split
  · exact ⟨by simp, List.forall_mem_singleton.mpr (by decide)⟩
  · refine ⟨by simp, fun c mem => ?_⟩
    obtain rfl : c = '|' := by simpa using mem
    decide

/-- A group-level term is two texts with its bar between them. -/
theorem Nested.spaced_iff {nested : Nested} {inner : List Char} :
    Spaced nested.tokens ('(' :: (inner ++ [')'])) ↔ ∃ effects group,
      inner = effects ++ (nested.bar ++ group) ∧ Spaced nested.side.tokens effects ∧
        Spaced [nested.factor.toList] group := by
  have tokens : nested.tokens = ['('] ::
      ((nested.side.tokens ++ nested.bar :: [nested.factor.toList]) ++ [[')']]) := by
    simp [Nested.tokens]
  rw [tokens, Text.spaced_between (by decide) (by decide), Text.spaced_cut]

/-- The text in the parentheses of a group-level term is cut at its bar. -/
theorem Nested.pieces {nested : Nested} (formed : nested.IsFormed) {effects group : List Char}
    (before : Spaced nested.side.tokens effects) (after : Spaced [nested.factor.toList] group) :
    hasDouble '|' (effects ++ (nested.bar ++ group)) = !nested.correlated ∧
      (if !nested.correlated then splitOnDouble '|' (effects ++ (nested.bar ++ group))
        else splitOn '|' (effects ++ (nested.bar ++ group))) = [effects, group] := by
  have free := List.forall_mem_append.mp (Nested.free formed (.inl rfl))
  have first : '|' ∉ effects := not_mem_of_spaced before (by decide) free.1
  have second : '|' ∉ group := not_mem_of_spaced after (by decide) free.2
  unfold Nested.bar
  cases nested.correlated with
  | true =>
    simp [hasDouble, Text.splitOnDouble_single first second, Text.splitOn_joined,
      Text.splitOn_of_not_mem first, Text.splitOn_of_not_mem second]
  | false =>
    simp [hasDouble, Text.splitOnDouble_double first, Text.splitOnDouble_of_not_mem second]

/-- A group-level term is read exactly from a text of it. -/
theorem readGroup_eq_ok_iff {inner : List Char} {term : GroupTerm} :
    readGroup ('(' :: (inner ++ [')'])) = .ok term ↔ ∃ nested : Nested, nested.IsFormed ∧
      Spaced nested.tokens ('(' :: (inner ++ [')'])) ∧ nested.term = term := by
  have between : ('(' :: (inner ++ [')'])).tail.dropLast = inner := by simp
  -- What varies is read exactly from the text before the bar, the factor from the one behind it.
  have parts {effects group : List Char} {correlated : Bool} : (do
        let side ← readSide refuseGroup effects
        if !side.intercept && side.terms.isEmpty then
          throw (FormulaError.noCoefficients (String.ofList inner))
        let name ← readName group inner
        return (⟨name, side.intercept, side.terms.eraseDups, correlated⟩ : GroupTerm)) = .ok term ↔
      ∃ nested : Nested, nested.IsFormed ∧ nested.correlated = correlated ∧
        Spaced nested.side.tokens effects ∧ Spaced [nested.factor.toList] group ∧
          nested.term = term := by
    simp only [↓throw_bind, bind_eq_ok, ite_throw_eq_ok, pure_eq_ok,
      readSide_eq_ok_iff readsParenthesized_empty, readName_eq_ok_iff]
    constructor
    · rintro ⟨_, ⟨side, formed, before, rfl⟩, kept, factor, ⟨named, after⟩, rfl⟩
      refine ⟨⟨side, correlated, factor⟩, ⟨formed, named, ?_⟩, rfl, before, after, rfl⟩
      by_cases intercept : side.intercept = true
      · exact .inl intercept
      · right
        obtain ⟨slope, mem⟩ := List.exists_mem_of_ne_nil
          (side.flatMap fun summand => summand.2.terms) (by simpa [intercept] using kept)
        exact List.ne_nil_of_mem (List.mem_eraseDups.mpr mem)
    · rintro ⟨⟨side, _, factor⟩, formed, rfl, before, after, rfl⟩
      refine ⟨_, ⟨side, formed.side, before, rfl⟩, ?_, factor, ⟨formed.factor, after⟩, rfl⟩
      rcases formed.effects with intercept | some
      · simp [show side.intercept = true from intercept]
      · obtain ⟨slope, mem⟩ := List.exists_mem_of_ne_nil _ some
        have listed := List.ne_nil_of_mem (List.mem_eraseDups.mp mem)
        simp only [Bool.and_eq_true, List.isEmpty_iff, not_and]
        exact fun _ => listed
  constructor
  · intro done
    simp only [readGroup, between] at done
    split at done
    · rename_i effects group cut
      obtain ⟨nested, formed, bar, before, after, rfl⟩ := parts.mp done
      refine ⟨nested, formed, Nested.spaced_iff.mpr ⟨effects, group, ?_, before, after⟩, rfl⟩
      unfold Nested.bar
      rw [bar]
      split at cut
      · rename_i double
        simpa [double, cut, List.intercalate] using
          (Text.intercalate_splitOnDouble '|' inner).symm
      · rename_i single
        simpa [single, cut, List.intercalate] using (Text.intercalate_splitOn '|' inner).symm
    · simp [throw_ne_ok] at done
  · rintro ⟨nested, formed, spaced, rfl⟩
    obtain ⟨effects, group, rfl, before, after⟩ := Nested.spaced_iff.mp spaced
    obtain ⟨double, pieces⟩ := Nested.pieces formed before after
    simp only [readGroup, between, double, pieces]
    exact parts.mpr ⟨nested, formed, by simp, before, after, rfl⟩

/-- Group-level terms are read from parentheses. -/
theorem readsParenthesized_nested : ReadsParenthesized Nested readGroup where
  enclosed := by
    intro nested formed
    refine ⟨nested.side.tokens ++ [nested.bar, nested.factor.toList], by
      simp [Parenthesized.tokens, Nested.tokens], fun token mem => ?_⟩
    have parts : token = nested.bar ∨ token ∈ nested.side.tokens ++ [nested.factor.toList] := by
      simp only [List.mem_append, List.mem_cons, List.not_mem_nil, or_false] at mem ⊢
      tauto
    rcases parts with rfl | other
    · refine ⟨nested.isSolid_bar, ?_, ?_⟩ <;> unfold Nested.bar <;> split <;> decide
    · refine ⟨?_, Nested.free formed (.inr (.inl rfl)) token other,
        Nested.free formed (.inr (.inr rfl)) token other⟩
      rcases List.mem_append.mp other with side | factor
      · exact formed.side.isSolid readsParenthesized_empty token side
      · exact List.mem_singleton.mp factor ▸ formed.factor.isSolid
  read _ _ := readGroup_eq_ok_iff

end Groups

section LeftSides

/-- Whether a text does not go on with a character of a kind. -/
def StopsAt (kind : Char → Bool) (chars : List Char) : Prop := ∀ c ∈ chars.head?, kind c = false

/-- A run of characters ends where the text does not go on with one of their kind. -/
theorem run_append {kind : Char → Bool} {run rest : List Char} (inside : ∀ c ∈ run, kind c = true)
    (stops : StopsAt kind rest) :
    (run ++ rest).takeWhile kind = run ∧ (run ++ rest).dropWhile kind = rest := by
  have last : rest.takeWhile kind = [] ∧ rest.dropWhile kind = rest := by
    cases rest with
    | nil => exact ⟨rfl, rfl⟩
    | cons c more => simp [stops c rfl]
  rw [List.takeWhile_append_of_pos inside, List.dropWhile_append_of_pos inside, last.1, last.2,
    List.append_nil]
  exact ⟨rfl, rfl⟩

/-- A run of characters stops where it was split off. -/
theorem stopsAt_dropWhile (kind : Char → Bool) (chars : List Char) :
    StopsAt kind (chars.dropWhile kind) := by
  intro c first
  have := List.head?_dropWhile_not kind chars
  rw [first] at this
  simpa using this

/-- A text stops in front of blanks and of a mark that are of another kind. -/
theorem stopsAt_of_spaced {kind : Char → Bool} {tokens : List (List Char)} {chars : List Char}
    (blanks : ∀ c, isBlank c = true → kind c = false)
    (first : ∀ token ∈ tokens.head?, ∃ mark, token = [mark] ∧ kind mark = false)
    (spaced : Spaced tokens chars) : StopsAt kind chars := by
  intro c here
  cases tokens with
  | nil => exact blanks c (spaced c (List.mem_of_mem_head? here))
  | cons token rest =>
    obtain ⟨mark, rfl, other⟩ := first token rfl
    obtain ⟨before, after, rfl, blank, _⟩ := spaced
    cases before with
    | nil =>
      obtain rfl : mark = c := by simpa using here
      exact other
    | cons d more =>
      obtain rfl : d = c := by simpa using here
      exact blanks d (blank d (by simp))

/-- Blanks continue no name. -/
theorem continuesName_of_isBlank (c : Char) (blank : isBlank c = true) : continuesName c = false := by
  by_contra continues
  have solid := isBlank_of_continuesName (Bool.eq_true_of_not_eq_false continues)
  rw [blank] at solid
  cases solid

/-- A name is split off exactly from a text that starts with it and goes on with another
character. -/
theorem takeName_eq_some_iff {chars rest : List Char} {name : String} :
    takeName chars = some (name, rest) ↔ IsVariableName name ∧ chars = name.toList ++ rest ∧
      StopsAt continuesName rest := by
  constructor
  · intro taken
    match chars with
    | [] => cases taken
    | c :: more =>
      rw [takeName] at taken
      split at taken
      · rename_i starts
        obtain ⟨rfl, rfl⟩ := Prod.mk.inj (Option.some.inj taken)
        refine ⟨?_, ?_, stopsAt_dropWhile _ _⟩
        · rw [IsVariableName, String.toList_ofList, isName, Bool.and_eq_true, List.all_eq_true]
          exact ⟨starts, fun d mem => List.mem_takeWhile_imp mem⟩
        · rw [String.toList_ofList, List.cons_append, List.takeWhile_append_dropWhile]
      · cases taken
  · rintro ⟨named, rfl, stops⟩
    obtain ⟨c, more, split, starts, continues⟩ := named.exists_cons
    rw [split] at continues ⊢
    obtain ⟨taken, dropped⟩ := run_append
      (fun d mem => continues d (List.mem_cons_of_mem _ mem)) stops
    rw [List.cons_append, takeName, if_pos starts, taken, dropped, ← split, String.ofList_toList]

/-- The tokens of a left side. -/
def leftTokens (response : String) (addition : Option (String × String)) : List (List Char) :=
  response.toList ::
    match addition with
    | none => []
    | some (word, argument) => [['|'], word.toList, ['('], argument.toList, [')']]

/-- Whether the characters of a word are letters and underscores. -/
structure IsWord (word : String) : Prop where
  /-- There is a character. -/
  nonempty : word.toList ≠ []
  /-- The characters are letters and underscores. -/
  letters : ∀ c ∈ word.toList, (c.isAlpha || c == '_') = true

/-- There are no blanks in a word. -/
theorem IsWord.isSolid {word : String} (formed : IsWord word) : IsSolid word.toList := by
  refine ⟨formed.nonempty, fun c mem => isBlank_of_continuesName ?_⟩
  have letter := formed.letters c mem
  simp only [Bool.or_eq_true] at letter
  simp only [continuesName, Char.isAlphanum, Bool.or_eq_true]
  tauto

/-- A mark that is no blank, as the token at the front of a text. -/
theorem spaced_mark_cons_iff {mark : Char} {rest : List (List Char)} {chars : List Char}
    (solid : isBlank mark = false) :
    Spaced ([mark] :: rest) chars ↔ ∃ after, stripStart chars = mark :: after ∧ Spaced rest after :=
  Text.spaced_cons_iff ⟨by simp, List.forall_mem_singleton.mpr solid⟩

/-- A name in front of blanks or of a mark is taken off exactly if it is the first token. -/
theorem spaced_name_cons_iff {name : String} (named : IsVariableName name)
    {rest : List (List Char)} {chars : List Char}
    (first : ∀ token ∈ rest.head?, ∃ mark, token = [mark] ∧ continuesName mark = false) :
    Spaced (name.toList :: rest) chars ↔
      ∃ after, takeName (stripStart chars) = some (name, after) ∧ Spaced rest after := by
  rw [Text.spaced_cons_iff named.isSolid]
  refine exists_congr fun after => and_congr_left fun spaced => ?_
  rw [takeName_eq_some_iff]
  exact ⟨fun split => ⟨named, split, stopsAt_of_spaced continuesName_of_isBlank first spaced⟩,
    fun taken => taken.2.1⟩

/-- What follows the bar is read exactly from a text of a word and a name in parentheses. -/
theorem readAddition_eq_some_iff {chars : List Char} {word argument : String} :
    readAddition chars = some (word, argument) ↔ IsWord word ∧ IsVariableName argument ∧
      Spaced [word.toList, ['('], argument.toList, [')']] chars := by
  have closing {after : List Char} : Spaced [[')']] after ↔
      ∃ last, stripStart after = ')' :: last ∧ stripStart last = [] := by
    rw [spaced_mark_cons_iff (by decide)]
    exact exists_congr fun last => and_congr_right fun _ => Text.stripStart_eq_nil_iff.symm
  have named {after : List Char} (named : IsVariableName argument) :
      Spaced [argument.toList, [')']] after ↔ ∃ rest,
        takeName (stripStart after) = some (argument, rest) ∧ Spaced [[')']] rest :=
    spaced_name_cons_iff named (by simp; decide)
  constructor
  · intro done
    simp only [readAddition] at done
    split at done
    · cases done
    rename_i some
    split at done
    · rename_i rest opened
      obtain ⟨⟨taken, after⟩, argued, done⟩ := Option.bind_eq_some_iff.mp done
      dsimp only at done
      split at done
      · rename_i last closed
        rw [Option.ite_none_right_eq_some] at done
        obtain ⟨blank, done⟩ := done
        obtain ⟨rfl, rfl⟩ := Prod.mk.inj (Option.some.inj done)
        have formed := (takeName_eq_some_iff.mp argued).1
        have letters : IsWord (String.ofList
            ((stripStart chars).takeWhile fun c => c.isAlpha || c == '_')) := by
          refine ⟨?_, ?_⟩ <;> rw [String.toList_ofList]
          · simpa using some
          · exact fun c mem => List.mem_takeWhile_imp (p := fun c => c.isAlpha || c == '_') mem
        refine ⟨letters, formed, (Text.spaced_cons_iff letters.isSolid).mpr ⟨_, ?_,
          (spaced_mark_cons_iff (by decide)).mpr ⟨rest, opened, (named formed).mpr ⟨after, argued,
            closing.mpr ⟨last, closed, List.isEmpty_iff.mp blank⟩⟩⟩⟩⟩
        rw [String.toList_ofList, List.takeWhile_append_dropWhile]
      · cases done
    · cases done
  · rintro ⟨letters, formed, spaced⟩
    obtain ⟨after, split, spaced⟩ := (Text.spaced_cons_iff letters.isSolid).mp spaced
    have stops : StopsAt (fun c => c.isAlpha || c == '_') after := by
      refine stopsAt_of_spaced (fun c blank => ?_) (by simp) spaced
      have other := continuesName_of_isBlank c blank
      simp only [continuesName, Char.isAlphanum, Bool.or_eq_false_iff] at other ⊢
      tauto
    obtain ⟨taken, dropped⟩ := run_append letters.letters stops
    obtain ⟨rest, opened, spaced⟩ := (spaced_mark_cons_iff (by decide)).mp spaced
    obtain ⟨behind, argued, spaced⟩ := (named formed).mp spaced
    obtain ⟨last, closed, blank⟩ := closing.mp spaced
    simp [readAddition, split, taken, dropped, letters.nonempty, opened, argued, closed, blank]

/-- A left side is read exactly from a text of its parts. -/
theorem readLeft?_eq_some_iff {chars : List Char} {side : LeftSide} :
    readLeft? chars = some side ↔ IsVariableName side.response ∧
      (∀ addition ∈ side.addition, IsWord addition.1 ∧ IsVariableName addition.2) ∧
        Spaced (leftTokens side.response side.addition) chars := by
  obtain ⟨response, addition⟩ := side
  have first (named : IsVariableName response) :
      Spaced (leftTokens response addition) chars ↔ ∃ after,
        takeName (stripStart chars) = some (response, after) ∧
          Spaced (leftTokens response addition).tail after := by
    refine spaced_name_cons_iff named fun token front => ?_
    cases addition with
    | none => cases front
    | some parts => exact ⟨'|', (Option.some.inj front).symm, by decide⟩
  have barred {parts : String × String} {after : List Char} :
      Spaced (leftTokens response (some parts)).tail after ↔ ∃ rest,
        stripStart after = '|' :: rest ∧
          Spaced [parts.1.toList, ['('], parts.2.toList, [')']] rest :=
    spaced_mark_cons_iff (by decide)
  constructor
  · intro done
    rw [readLeft?] at done
    obtain ⟨⟨name, after⟩, taken, done⟩ := Option.bind_eq_some_iff.mp done
    have named := (takeName_eq_some_iff.mp taken).1
    dsimp only at done
    split at done
    · rename_i blank
      obtain ⟨rfl, rfl⟩ := LeftSide.mk.inj (Option.some.inj done)
      exact ⟨named, nofun, (first named).mpr ⟨after, taken, Text.stripStart_eq_nil_iff.mp blank⟩⟩
    · rename_i rest bar
      obtain ⟨parts, read, done⟩ := Option.bind_eq_some_iff.mp done
      obtain ⟨rfl, rfl⟩ := LeftSide.mk.inj (Option.some.inj done)
      obtain ⟨letters, formed, spaced⟩ := readAddition_eq_some_iff.mp read
      refine ⟨named, ?_, (first named).mpr ⟨after, taken, barred.mpr ⟨rest, bar, spaced⟩⟩⟩
      rintro _ ⟨⟩
      exact ⟨letters, formed⟩
    · cases done
  · rintro ⟨named, formed, spaced⟩
    obtain ⟨after, taken, spaced⟩ := (first named).mp spaced
    cases addition with
    | none =>
      have blank := Text.stripStart_eq_nil_iff.mpr spaced
      simp [readLeft?, taken, blank]
    | some parts =>
      obtain ⟨rest, bar, spaced⟩ := barred.mp spaced
      obtain ⟨letters, argued⟩ := formed parts rfl
      have read := readAddition_eq_some_iff.mpr ⟨letters, argued, spaced⟩
      simp [readLeft?, taken, bar, read]

end LeftSides

namespace Written

/-- The tokens of a left side have no tilde. -/
theorem not_mem_left {written : Written} (formed : written.IsFormed) :
    ∀ token ∈ written.left, '~' ∉ token := by
  have response := formed.response.not_mem (show continuesName '~' = false by decide)
  unfold left
  cases trials : written.trials with
  | none => simpa using response
  | some name =>
    have counted := (formed.trials name trials).not_mem (show continuesName '~' = false by decide)
    simp only [List.forall_mem_cons, List.not_mem_nil, false_imp_iff, implies_true, and_true]
    exact ⟨response, by decide, by decide, by decide, counted, by decide⟩

/-- The tokens of a right side have no tilde. -/
theorem not_mem_side {written : Written} (formed : written.IsFormed) :
    ∀ token ∈ written.side.tokens, '~' ∉ token := by
  refine formed.side.not_mem (by decide) (by decide) fun nested own token mem => ?_
  have inner := own.side.not_mem (show continuesName '~' = false by decide) (by decide) nofun
  have factor := own.factor.not_mem (show continuesName '~' = false by decide)
  have bar : '~' ∉ nested.bar := by
    unfold Nested.bar
    split <;> decide
  have tokens : token ∈ ['('] :: (nested.side.tokens ++
      [nested.bar, nested.factor.toList, [')']]) := mem
  rw [List.mem_cons, List.mem_append] at tokens
  rcases tokens with rfl | varying | rest
  · decide
  · exact inner token varying
  · simp only [List.mem_cons, List.not_mem_nil, or_false] at rest
    rcases rest with rfl | rfl | rfl
    · exact bar
    · exact factor
    · decide

/-- A text of a formula has one tilde, between its sides. -/
theorem splitOn_of_spells {written : Written} (formed : written.IsFormed) {text : String}
    (spelled : written.Spells text) : ∃ left right, splitOn '~' text.toList = [left, right] ∧
      Spaced written.left left ∧ Spaced written.side.tokens right := by
  obtain ⟨left, right, split, before, after⟩ := Text.spaced_mark.mp spelled
  have first := not_mem_of_spaced before (by decide) (not_mem_left formed)
  have second := not_mem_of_spaced after (by decide) (not_mem_side formed)
  refine ⟨left, right, ?_, before, after⟩
  rw [split, Text.splitOn_joined, Text.splitOn_of_not_mem first, Text.splitOn_of_not_mem second]
  rfl

/-- A left side with its number of trials. -/
theorem left_eq (written : Written) : written.left =
    leftTokens written.response (written.trials.map fun name => ("trials", name)) := by
  unfold left leftTokens
  cases written.trials <;> rfl

end Written

/-- A formula is read exactly from a text of it. -/
theorem read_eq_ok_iff {text : String} {formula : Formula} : read text = .ok formula ↔
    ∃ written : Written, written.IsFormed ∧ written.Spells text ∧ written.formula = formula := by
  constructor
  · intro done
    unfold read at done
    split at done
    · rename_i left right cut
      have split : text.toList = left ++ '~' :: right := by
        simpa [cut, List.intercalate] using (Text.intercalate_splitOn '~' text.toList).symm
      cases known : readLeft? left with
      | none => simp [known, throw_ne_ok] at done
      | some side =>
        obtain ⟨response, addition⟩ := side
        obtain ⟨named, formed, before⟩ := readLeft?_eq_some_iff.mp known
        -- An addition that is not refused is a number of trials.
        obtain ⟨trials, rfl, done⟩ : ∃ trials : Option String,
            addition = trials.map (fun name => ("trials", name)) ∧
              (readSide readGroup right >>= fun rest => pure (⟨response, trials, rest.intercept,
                rest.terms.eraseDups, rest.groupTerms⟩ : Formula)) = .ok formula := by
          rcases addition with _ | ⟨word, argument⟩
          · simp only [known, ↓throw_bind, ite_throw_eq_ok] at done
            exact ⟨none, rfl, done.2⟩
          · simp only [known, ↓throw_bind, ite_throw_eq_ok] at done
            exact ⟨some argument, by rw [← not_ne_iff.mp done.1]; rfl, done.2.2⟩
        simp only [bind_eq_ok, pure_eq_ok, readSide_eq_ok_iff readsParenthesized_nested] at done
        obtain ⟨_, ⟨side, own, after, rfl⟩, rfl⟩ := done
        let written : Written := ⟨response, trials, side⟩
        refine ⟨written, ⟨named, fun name mem => (formed ("trials", name) ?_).2, own⟩,
          ?_, rfl⟩
        · simpa using mem
        · rw [Written.Spells, split, Text.spaced_mark, written.left_eq]
          exact ⟨left, right, rfl, before, after⟩
    · simp [throw_ne_ok] at done
  · rintro ⟨⟨response, trials, side⟩, formed, spelled, rfl⟩
    obtain ⟨left, right, cut, before, after⟩ := Written.splitOn_of_spells formed spelled
    have readRight := (readSide_eq_ok_iff readsParenthesized_nested).mpr
      ⟨side, formed.side, after, rfl⟩
    have occupied : (stripBoth right).isEmpty = false := by
      rw [Bool.eq_false_iff, ne_eq, List.isEmpty_iff, Text.stripBoth_eq_nil_iff]
      intro blank
      rw [readSide_of_areBlank blank] at readRight
      cases readRight
    have word : IsWord "trials" := ⟨by decide, List.all_eq_true.mp (by decide)⟩
    have readLeft : readLeft? left =
        some ⟨response, trials.map fun name => ("trials", name)⟩ := by
      rw [Written.left_eq] at before
      refine readLeft?_eq_some_iff.mpr ⟨formed.response, ?_, before⟩
      intro addition mem
      obtain ⟨name, given, rfl⟩ := Option.mem_map.mp mem
      exact ⟨word, formed.trials name given⟩
    cases trials <;>
      simp [read, cut, readLeft, readRight, occupied, Written.formula, Side.terms, bind, Except.bind,
        pure, Except.pure]

/-- The reader accepts exactly the texts of formulas, which have one tilde, and refuses every other
one. It returns the formula that is written, where a crossing stands for all choices of its names. -/
theorem read_spec (text : String) :
    (∀ formula, read text = .ok formula ↔ ∃ written : Written,
      written.IsFormed ∧ written.Spells text ∧ written.formula = formula) ∧
    ((∃ fault, read text = .error fault) ↔
      ¬∃ written : Written, written.IsFormed ∧ written.Spells text) ∧
    (∀ written : Written, written.IsFormed → written.Spells text → text.toList.count '~' = 1) ∧
    ∀ names, IsCrossing names (crossing names) := by
  refine ⟨fun formula => read_eq_ok_iff, ?_, ?_, crossing_isCrossing⟩
  · constructor
    · rintro ⟨fault, failed⟩ ⟨written, formed, spelled⟩
      rw [read_eq_ok_iff.mpr ⟨written, formed, spelled, rfl⟩] at failed
      cases failed
    · intro none
      cases done : read text with
      | error fault => exact ⟨fault, rfl⟩
      | ok formula =>
        obtain ⟨written, formed, spelled, _⟩ := read_eq_ok_iff.mp done
        exact absurd ⟨written, formed, spelled⟩ none
  · intro written formed spelled
    obtain ⟨left, right, split, before, after⟩ := Text.spaced_mark.mp spelled
    have first := not_mem_of_spaced before (by decide) (Written.not_mem_left formed)
    have second := not_mem_of_spaced after (by decide) (Written.not_mem_side formed)
    rw [split, List.count_append, List.count_cons_self, List.count_eq_zero_of_not_mem first,
      List.count_eq_zero_of_not_mem second]

end Multilevel.Formula
