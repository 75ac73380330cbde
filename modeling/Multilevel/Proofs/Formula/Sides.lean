import Multilevel.Proofs.Formula.Summands

/-!
# Reading right sides

A name, a term and a right side are read exactly from the texts that spell them. A right side is
read for any way of reading what stands in parentheses that fits how it is written there
(`ReadsParenthesized`), so one argument serves the right side of a formula and the effects of a
group-level term (`readSide_eq_ok_iff`).
-/
namespace Multilevel

open Formula (continuesName startsName)
open Text (AreBlank IsSolid Spaced isBlank joined splitOn stripBoth)

section Names

/-- A character of a name is no blank. -/
theorem isBlank_of_continuesName {c : Char} (continues : continuesName c = true) :
    isBlank c = false := by
  simp only [continuesName, Char.isAlphanum, Char.isAlpha, Char.isUpper, Char.isLower,
    Char.isDigit, Bool.or_eq_true, Bool.and_eq_true, decide_eq_true_eq, beq_iff_eq,
    ge_iff_le, UInt32.le_iff_toNat_le] at continues
  have letters : 'A'.val.toNat = 65 ∧ 'Z'.val.toNat = 90 ∧ 'a'.val.toNat = 97 ∧
      'z'.val.toNat = 122 ∧ '0'.val.toNat = 48 ∧ '9'.val.toNat = 57 := by decide
  have range : 46 ≤ c.toNat ∧ c.toNat ≤ 122 := by
    rcases continues with (named | rfl) | rfl
    · simp only [Char.toNat]
      omega
    · decide
    · decide
  simp [isBlank]
  omega

/-- A character that starts a name continues it too. -/
theorem continuesName_of_startsName {c : Char} (starts : startsName c = true) :
    continuesName c = true := by
  simp only [startsName, Bool.or_eq_true] at starts
  simp only [continuesName, Char.isAlphanum, Bool.or_eq_true]
  tauto

namespace IsVariableName

variable {name : String}

/-- The first character of a name starts it, and the others continue it. -/
theorem exists_cons (named : IsVariableName name) : ∃ c rest, name.toList = c :: rest ∧
    startsName c = true ∧ ∀ d ∈ name.toList, continuesName d = true := by
  unfold IsVariableName Formula.isName at named
  split at named
  · cases named
  · rename_i c rest split
    rw [Bool.and_eq_true, List.all_eq_true] at named
    refine ⟨c, rest, split, named.1, ?_⟩
    rw [split, List.forall_mem_cons]
    exact ⟨continuesName_of_startsName named.1, named.2⟩

/-- There are no blanks in a name. -/
theorem isSolid (named : IsVariableName name) : IsSolid name.toList := by
  obtain ⟨c, rest, split, _, continues⟩ := named.exists_cons
  exact ⟨by simp [split], fun d mem => isBlank_of_continuesName (continues d mem)⟩

/-- A character that continues no name is not in one. -/
theorem not_mem (named : IsVariableName name) {c : Char} (other : continuesName c = false) :
    c ∉ name.toList := by
  intro mem
  obtain ⟨_, _, _, _, continues⟩ := named.exists_cons
  rw [continues c mem] at other
  cases other

end IsVariableName

namespace Formula

/-- A name is read exactly from a text of the name. -/
theorem readName_eq_ok_iff {chars context : List Char} {name : String} :
    readName chars context = .ok name ↔ IsVariableName name ∧ Spaced [name.toList] chars := by
  constructor
  · intro done
    have named := readName_eq_ok done
    refine ⟨named, (Text.spaced_singleton_iff named.isSolid).mpr ?_⟩
    unfold readName at done
    dsimp only at done
    split at done
    · rw [← Except.ok.inj done, String.toList_ofList]
    · cases done
  · rintro ⟨named, spaced⟩
    have same := (Text.spaced_singleton_iff named.isSolid).mp spaced
    rw [readName, same, if_pos (show isName name.toList = true from named), String.ofList_toList]

/-- Names are read between marks exactly from a text of the names with the mark between them. -/
theorem mapM_readName_eq_ok_iff {mark : Char} {chars context : List Char} {names : List String}
    (solid : isBlank mark = false) (other : continuesName mark = false) :
    (splitOn mark chars).mapM (fun piece => readName piece context) = .ok names ↔
      names ≠ [] ∧ (∀ name ∈ names, IsVariableName name) ∧ Spaced (joined mark names) chars := by
  constructor
  · intro done
    have formed := mapM_readName_eq_ok done
    refine ⟨formed.nonempty, formed.named, ?_⟩
    rw [Text.spaced_joined solid formed.nonempty fun name mem =>
      (formed.named name mem).not_mem other]
    exact (mapM_eq_ok.mp done).flip.imp fun name piece read => (readName_eq_ok_iff.mp read).2
  · rintro ⟨some, named, spaced⟩
    rw [Text.spaced_joined solid some fun name mem => (named name mem).not_mem other] at spaced
    rw [mapM_eq_ok]
    refine ((forall₂_and_mem spaced).flip).imp fun piece name here => ?_
    exact readName_eq_ok_iff.mpr ⟨named name here.1, here.2⟩

end Formula

end Names

namespace Formula

variable {γ : Type} [Parenthesized γ]

namespace Summand

/-- The tokens of a summand without parentheses are its names and the marks between them. -/
theorem mem_tokens {summand : Summand γ} {token : List Char} (some : summand.names ≠ [])
    (mem : token ∈ summand.tokens) :
    (∃ name ∈ summand.names, token = name.toList) ∨ token = [':'] ∨ token = ['*'] := by
  match summand with
  | interaction first rest => exact (Text.of_mem_joined mem).imp_right .inl
  | crossing first second rest => exact (Text.of_mem_joined mem).imp_right .inr
  | zero | one | group _ => exact absurd rfl some

/-- The tokens of a summand without parentheses are solid. -/
theorem isSolid {summand : Summand γ} (some : summand.names ≠ [])
    (named : ∀ name ∈ summand.names, IsVariableName name) :
    ∀ token ∈ summand.tokens, IsSolid token := by
  intro token mem
  rcases mem_tokens some mem with ⟨name, listed, rfl⟩ | rfl | rfl
  · exact (named name listed).isSolid
  · exact ⟨by simp, List.forall_mem_singleton.mpr (by decide)⟩
  · exact ⟨by simp, List.forall_mem_singleton.mpr (by decide)⟩

/-- A text of a summand without parentheses has nothing but blanks, its names and the marks between
them. -/
theorem mem_cases {summand : Summand γ} {chars : List Char} (some : summand.names ≠ [])
    (named : ∀ name ∈ summand.names, IsVariableName name) (spaced : Spaced summand.tokens chars)
    {c : Char} (mem : c ∈ chars) :
    isBlank c = true ∨ continuesName c = true ∨ c = ':' ∨ c = '*' := by
  rcases spaced.mem_cases mem with blank | ⟨token, listed, here⟩
  · exact .inl blank
  rcases mem_tokens some listed with ⟨name, own, rfl⟩ | rfl | rfl
  · obtain ⟨_, _, _, _, continues⟩ := (named name own).exists_cons
    exact .inr (.inl (continues c here))
  · exact .inr (.inr (.inl (List.mem_singleton.mp here)))
  · exact .inr (.inr (.inr (List.mem_singleton.mp here)))

/-- A text of a summand without parentheses has a character that starts a name. -/
theorem exists_startsName {summand : Summand γ} {chars : List Char} (some : summand.names ≠ [])
    (named : ∀ name ∈ summand.names, IsVariableName name)
    (spaced : Spaced summand.tokens chars) : ∃ c ∈ chars, startsName c = true := by
  have first (name : String) (own : name ∈ summand.names)
      (token : name.toList ∈ summand.tokens) : ∃ c ∈ chars, startsName c = true := by
    obtain ⟨c, rest, split, starts, _⟩ := (named name own).exists_cons
    exact ⟨c, spaced.mem_of_mem token (by simp [split]), starts⟩
  match summand with
  | interaction head rest =>
    refine first head (by simp [names]) ?_
    cases rest <;> simp [tokens, joined]
  | crossing head second rest =>
    exact first head (by simp [names]) (by simp [tokens, joined])
  | zero | one | group _ => exact absurd rfl some

end Summand

/-- A text without an asterisk is read as an interaction, be it of a single name. -/
theorem readTerms_eq (chars : List Char) : readTerms chars =
    if '*' ∈ chars then do
      return crossing (← (splitOn '*' chars).mapM fun piece => readName piece chars)
    else do
      return [⟨← (splitOn ':' chars).mapM fun piece => readName piece chars⟩] := by
  rw [readTerms]
  by_cases crossed : '*' ∈ chars
  · simp [crossed]
  by_cases joined : ':' ∈ chars
  · simp [crossed, joined]
  · simp [crossed, joined, Text.splitOn_of_not_mem joined]

/-- The terms of a summand without parentheses are read exactly from a text of it. -/
theorem readTerms_eq_ok_iff (γ : Type) [Parenthesized γ] {chars : List Char} {terms : List Term} :
    readTerms chars = .ok terms ↔ ∃ summand : Summand γ, summand.names ≠ [] ∧
      (∀ name ∈ summand.names, IsVariableName name) ∧ Spaced summand.tokens chars ∧
        summand.terms = terms := by
  have crossed {names : List String} :
      (splitOn '*' chars).mapM (fun piece => readName piece chars) = .ok names ↔
        names ≠ [] ∧ (∀ name ∈ names, IsVariableName name) ∧ Spaced (joined '*' names) chars :=
    mapM_readName_eq_ok_iff (by decide) (by decide)
  have interacting {names : List String} :
      (splitOn ':' chars).mapM (fun piece => readName piece chars) = .ok names ↔
        names ≠ [] ∧ (∀ name ∈ names, IsVariableName name) ∧ Spaced (joined ':' names) chars :=
    mapM_readName_eq_ok_iff (by decide) (by decide)
  rw [readTerms_eq]
  constructor
  · split
    · rename_i mark
      simp only [bind_eq_ok, pure_eq_ok]
      rintro ⟨names, read, rfl⟩
      obtain ⟨some, named, spaced⟩ := crossed.mp read
      match names with
      | [] => exact absurd rfl some
      | [name] =>
        -- One name has no asterisk.
        rcases spaced.mem_cases mark with blank | ⟨token, mem, here⟩
        · exact absurd blank (by decide)
        · rw [List.mem_singleton.mp mem] at here
          exact absurd here ((named name (by simp)).not_mem (by decide))
      | first :: second :: rest =>
        exact ⟨.crossing first second rest, some, named, spaced, rfl⟩
    · simp only [bind_eq_ok, pure_eq_ok]
      rintro ⟨names, read, rfl⟩
      obtain ⟨some, named, spaced⟩ := interacting.mp read
      match names with
      | [] => exact absurd rfl some
      | first :: rest => exact ⟨.interaction first rest, some, named, spaced, rfl⟩
  · rintro ⟨summand, some, named, spaced, rfl⟩
    match summand with
    | .zero | .one | .group _ => exact absurd rfl some
    | .crossing first second rest =>
      have mark : '*' ∈ chars :=
        spaced.mem_of_mem (show ['*'] ∈ joined '*' (first :: second :: rest) by simp [joined])
          (by simp)
      rw [if_pos mark, crossed.mpr ⟨some, named, spaced⟩]
      rfl
    | .interaction first rest =>
      have unmarked : '*' ∉ chars := by
        intro mem
        rcases spaced.mem_cases mem with blank | ⟨token, listed, here⟩
        · exact absurd blank (by decide)
        rcases Text.of_mem_joined listed with ⟨name, own, rfl⟩ | rfl
        · exact (named name own).not_mem (by decide) here
        · exact absurd here (by decide)
      rw [if_neg unmarked, interacting.mpr ⟨some, named, spaced⟩]
      rfl

/-- Whether a way of reading terms in parentheses fits how they are written. -/
structure ReadsParenthesized (γ : Type) [Parenthesized γ]
    (readGroup : List Char → Except FormulaError GroupTerm) : Prop where
  /-- A term stands in parentheses, and there are no others in it. -/
  enclosed : ∀ written : γ, Parenthesized.IsFormed written → ∃ inner,
    Parenthesized.tokens written = ['('] :: (inner ++ [[')']]) ∧
      ∀ token ∈ inner, IsSolid token ∧ '(' ∉ token ∧ ')' ∉ token
  /-- What stands in parentheses is read exactly from a text of a term. -/
  read : ∀ inner term, readGroup ('(' :: (inner ++ [')'])) = .ok term ↔ ∃ written : γ,
    Parenthesized.IsFormed written ∧
      Spaced (Parenthesized.tokens written) ('(' :: (inner ++ [')'])) ∧
        Parenthesized.term written = term

variable {readGroup : List Char → Except FormulaError GroupTerm}

namespace ReadsParenthesized

/-- A text of a term has it in parentheses. -/
theorem exists_inner (reads : ReadsParenthesized γ readGroup) {written : γ}
    (formed : Parenthesized.IsFormed written) {chars : List Char}
    (spaced : Spaced (Parenthesized.tokens written) chars) :
    ∃ before inner after, AreBlank before ∧ AreBlank after ∧ ('(' ∉ inner ∧ ')' ∉ inner) ∧
      chars = before ++ '(' :: (inner ++ ')' :: after) := by
  obtain ⟨tokens, split, free⟩ := reads.enclosed written formed
  rw [split] at spaced
  obtain ⟨before, _, rfl, first, spaced⟩ := spaced
  obtain ⟨inner, after, rfl, inside, last⟩ := Text.spaced_mark.mp spaced
  have other {c : Char} (solid : isBlank c = false)
      (free : ∀ token ∈ tokens, c ∉ token) : c ∉ inner := by
    intro mem
    rcases inside.mem_cases mem with blank | ⟨token, listed, here⟩
    · rw [solid] at blank
      cases blank
    · exact free token listed here
  exact ⟨before, inner, after, first, last, ⟨other (by decide) fun token mem => (free token mem).2.1,
    other (by decide) fun token mem => (free token mem).2.2⟩, rfl⟩

/-- The tokens of a term are solid. -/
theorem isSolid (reads : ReadsParenthesized γ readGroup) {written : γ}
    (formed : Parenthesized.IsFormed written) :
    ∀ token ∈ Parenthesized.tokens written, IsSolid token := by
  obtain ⟨inner, split, free⟩ := reads.enclosed written formed
  intro token mem
  rw [split, List.mem_cons, List.mem_append, List.mem_singleton] at mem
  rcases mem with rfl | inside | rfl
  · exact ⟨by simp, List.forall_mem_singleton.mpr (by decide)⟩
  · exact (free token inside).1
  · exact ⟨by simp, List.forall_mem_singleton.mpr (by decide)⟩

end ReadsParenthesized

namespace Summand

/-- The tokens of a summand as it should be are solid. -/
theorem IsFormed.isSolid (reads : ReadsParenthesized γ readGroup) {sign : Sign}
    {summand : Summand γ} (formed : summand.IsFormed sign) :
    ∀ token ∈ summand.tokens, IsSolid token := by
  match summand with
  | .zero | .one =>
    exact List.forall_mem_singleton.mpr ⟨by simp, List.forall_mem_singleton.mpr (by decide)⟩
  | .interaction first rest => exact Summand.isSolid (by simp [Summand.names]) formed.names
  | .crossing first second rest => exact Summand.isSolid (by simp [Summand.names]) formed.names
  | .group written => exact reads.isSolid (formed.group written rfl)

/-- A text of a summand has its parentheses closed and its signs inside of them, and it is not
blank. -/
theorem IsFormed.isWhole (reads : ReadsParenthesized γ readGroup) {sign : Sign}
    {summand : Summand γ} (formed : summand.IsFormed sign) {piece : List Char}
    (spaced : Spaced summand.tokens piece) : IsWhole piece ∧ ¬AreBlank piece := by
  have occupied {token : List Char} (mem : token ∈ summand.tokens) : ¬AreBlank piece := by
    obtain ⟨some, solid⟩ := formed.isSolid reads token mem
    obtain ⟨c, here⟩ := List.exists_mem_of_ne_nil token some
    intro blank
    have both := blank c (spaced.mem_of_mem mem here)
    rw [solid c here] at both
    cases both
  -- Without parentheses there are only blanks, digits, names and the marks between them.
  have plain (each : ∀ c ∈ piece, isBlank c = true ∨ c = '0' ∨ c = '1' ∨ continuesName c = true ∨
      c = ':' ∨ c = '*') : IsWhole piece := by
    refine isWhole_of_plain fun c mem => ?_
    rcases each c mem with blank | rfl | rfl | continues | rfl | rfl
    · exact plain_of_isBlank blank
    · decide
    · decide
    · refine ⟨?_, ?_, ?_, ?_⟩ <;> rintro rfl <;> exact absurd continues (by decide)
    · decide
    · decide
  have digit {digit : Char} (only : summand.tokens = [[digit]]) :
      ∀ c ∈ piece, isBlank c = true ∨ c = digit := by
    intro c mem
    rw [only] at spaced
    exact (spaced.mem_cases mem).imp_right fun ⟨token, listed, here⟩ =>
      List.mem_singleton.mp (List.mem_singleton.mp listed ▸ here)
  match summand with
  | .zero =>
    refine ⟨plain fun c mem => ?_, occupied List.mem_cons_self⟩
    exact (digit rfl c mem).imp_right .inl
  | .one =>
    refine ⟨plain fun c mem => ?_, occupied List.mem_cons_self⟩
    exact (digit rfl c mem).imp_right fun same => .inr (.inl same)
  | .interaction first rest =>
    refine ⟨plain fun c mem => ?_, @occupied first.toList (by cases rest <;> simp [tokens, joined])⟩
    exact (Summand.mem_cases (by simp [Summand.names]) formed.names spaced mem).imp_right (.inr ∘ .inr)
  | .crossing first second rest =>
    refine ⟨plain fun c mem => ?_, @occupied first.toList (by simp [tokens, joined])⟩
    exact (Summand.mem_cases (by simp [Summand.names]) formed.names spaced mem).imp_right (.inr ∘ .inr)
  | .group written =>
    have own := formed.group written rfl
    obtain ⟨inner, split, _⟩ := reads.enclosed written own
    refine ⟨?_, @occupied ['('] (by simp [tokens, split])⟩
    obtain ⟨before, inside, after, first, last, free, rfl⟩ := reads.exists_inner own spaced
    exact isWhole_parenthesized first last free

end Summand

/-- A right side with what one more summand says. -/
def RightSide.extend (side : RightSide) (summand : Sign × Summand γ) : RightSide :=
  ⟨(Summand.intercept? summand).getD side.intercept, side.terms ++ summand.2.terms,
    side.groupTerms ++ summand.2.groupTerms⟩

/-- What all summands of a right side say, one after the other. -/
theorem foldl_extend (side : Side γ) (start : RightSide) : side.foldl RightSide.extend start =
    ⟨(side.filterMap Summand.intercept?).getLast?.getD start.intercept,
      start.terms ++ side.flatMap fun summand => summand.2.terms,
      start.groupTerms ++ side.groupTerms⟩ := by
  induction side generalizing start with
  | nil => simp [Side.groupTerms]
  | cons summand rest ih =>
    rw [List.foldl_cons, ih]
    cases said : Summand.intercept? summand <;>
      simp [RightSide.extend, Side.groupTerms, said, List.getLast?_cons]

/-- A text in parentheses, less the blanks around these. -/
theorem stripBoth_parenthesized {before inner after : List Char} (first : AreBlank before)
    (last : AreBlank after) :
    stripBoth (before ++ '(' :: (inner ++ ')' :: after)) = '(' :: (inner ++ [')']) := by
  have opening : IsSolid ['('] := ⟨by simp, List.forall_mem_singleton.mpr (by decide)⟩
  have closing : IsSolid [')'] := ⟨by simp, List.forall_mem_singleton.mpr (by decide)⟩
  rw [stripBoth, Text.stripStart_append first]
  have start := Text.stripStart_solid opening (inner ++ ')' :: after)
  have finish := Text.stripEnd_append closing ('(' :: inner) after
  rw [Text.stripEnd_of_areBlank last] at finish
  simp only [List.cons_append, List.nil_append] at start finish
  rw [start, finish]

/-- A text that starts and ends with a parenthesis. -/
theorem exists_of_parentheses {term : List Char} (opened : term.head? = some '(')
    (closed : term.getLast? = some ')') : ∃ inner, term = '(' :: (inner ++ [')']) := by
  match term with
  | [] => cases opened
  | c :: rest =>
    obtain rfl := Option.some.inj opened
    rcases List.eq_nil_or_concat rest with rfl | ⟨inner, last, rfl⟩
    · exact absurd closed (by decide)
    · have same : last = ')' := by
        simpa [List.getLast?_cons] using closed
      exact ⟨inner, by rw [same, List.concat_eq_append]⟩

/-- What is added is a summand. -/
theorem exists_of_add_eq_ok (reads : ReadsParenthesized γ readGroup) {whole chars : List Char}
    {sign : Sign} {side next : RightSide}
    (done : side.add readGroup whole (sign, stripBoth chars) = .ok next) : ∃ summand : Summand γ,
      summand.IsFormed sign ∧ Spaced summand.tokens chars ∧ side.extend (sign, summand) = next := by
  have digit {c : Char} (solid : isBlank c = false) :
      Spaced [[c]] chars ↔ stripBoth chars = [c] :=
    Text.spaced_singleton_iff ⟨by simp, List.forall_mem_singleton.mpr solid⟩
  rw [RightSide.add] at done
  split at done
  · -- An intercept is kept or left out.
    rename_i intercept
    rw [ite_error_eq_ok] at done
    obtain ⟨kept, rfl⟩ := done.imp_right Except.ok.inj
    rcases intercept with none | one
    · refine ⟨.zero, ⟨fun minus => absurd ⟨minus, none⟩ kept, by simp [Summand.names], by rintro _ ⟨⟩⟩,
        (digit (by decide)).mpr none, ?_⟩
      simp [RightSide.extend, Summand.intercept?, Summand.terms, Summand.groupTerms, none]
    · refine ⟨.one, ⟨fun _ => rfl, by simp [Summand.names], by rintro _ ⟨⟩⟩,
        (digit (by decide)).mpr one, ?_⟩
      simp [RightSide.extend, Summand.intercept?, Summand.terms, Summand.groupTerms, one]
  rw [ite_error_eq_ok] at done
  obtain ⟨plus, done⟩ := done
  split at done
  · rename_i parentheses
    obtain ⟨term, read, made⟩ := bind_eq_ok.mp done
    obtain rfl := pure_eq_ok.mp made
    obtain ⟨inner, split⟩ := exists_of_parentheses parentheses.1 parentheses.2
    rw [split] at read
    obtain ⟨written, formed, spaced, rfl⟩ := (reads.read inner term).mp read
    rw [← split] at spaced
    have whole := (Text.spaced_stripBoth (reads.isSolid formed)).mp spaced
    refine ⟨.group written, ⟨fun minus => absurd minus plus, by simp [Summand.names], ?_⟩, whole,
      ?_⟩
    · rintro _ ⟨⟩
      exact formed
    · simp [RightSide.extend, Summand.intercept?, Summand.terms, Summand.groupTerms]
  · rw [ite_error_eq_ok] at done
    obtain ⟨terms, read, made⟩ := bind_eq_ok.mp done.2
    obtain rfl := pure_eq_ok.mp made
    obtain ⟨summand, some, named, spaced, rfl⟩ := (readTerms_eq_ok_iff γ).mp read
    have whole := (Text.spaced_stripBoth (Summand.isSolid some named)).mp spaced
    refine ⟨summand, ⟨fun minus => absurd minus plus, named, ?_⟩, whole, ?_⟩
    · rintro written rfl
      exact absurd rfl some
    · cases summand with
      | zero | one | group => exact absurd rfl some
      | interaction | crossing =>
        simp [RightSide.extend, Summand.intercept?, Summand.groupTerms]

/-- A summand of names is added as such, since it is no digit and has no parentheses. -/
theorem add_of_names {whole chars : List Char} {sign : Sign} {summand : Summand γ}
    (side : RightSide) (formed : summand.IsFormed sign) (worded : summand.names ≠ [])
    (meant : Summand.intercept? (sign, summand) = none ∧ summand.groupTerms = [])
    (unlike : summand ≠ .one) (stripped : Spaced summand.tokens (stripBoth chars)) :
    side.add readGroup whole (sign, stripBoth chars) = .ok (side.extend (sign, summand)) := by
  obtain ⟨c, mem, starts⟩ := Summand.exists_startsName worded formed.names stripped
  have noDigit {digit : Char} (other : startsName digit = false) :
      stripBoth chars ≠ [digit] := by
    intro same
    rw [same, List.mem_singleton] at mem
    rw [mem, other] at starts
    cases starts
  have free {d : Char} (solid : isBlank d = false) (other : continuesName d = false)
      (marks : d ≠ ':' ∧ d ≠ '*') : d ∉ stripBoth chars := by
    intro mem
    rcases Summand.mem_cases worded formed.names stripped mem with
      blank | continues | colon | asterisk
    · rw [solid] at blank
      cases blank
    · rw [other] at continues
      cases continues
    · exact marks.1 colon
    · exact marks.2 asterisk
  have opened : '(' ∉ stripBoth chars := free (by decide) (by decide) (by decide)
  have closed : ')' ∉ stripBoth chars := free (by decide) (by decide) (by decide)
  have barred : '|' ∉ stripBoth chars := free (by decide) (by decide) (by decide)
  have front : ¬((stripBoth chars).head? = some '(' ∧ (stripBoth chars).getLast? = some ')') :=
    fun both => opened (List.mem_of_mem_head? both.1)
  have terms : readTerms (stripBoth chars) = .ok summand.terms :=
    (readTerms_eq_ok_iff γ).mpr ⟨summand, worded, formed.names, stripped, rfl⟩
  rw [RightSide.add, if_neg (by simp [noDigit (show startsName '0' = false by decide),
      noDigit (show startsName '1' = false by decide)]),
    if_neg fun minus => unlike (formed.sign minus), if_neg front,
    if_neg (by simp [opened, closed, barred]), terms]
  simp [RightSide.extend, meant, bind, Except.bind, pure, Except.pure]

/-- A summand is added exactly from a text of it. -/
theorem add_eq_ok_iff (reads : ReadsParenthesized γ readGroup) {whole chars : List Char}
    {sign : Sign} {side next : RightSide} :
    side.add readGroup whole (sign, stripBoth chars) = .ok next ↔ ∃ summand : Summand γ,
      summand.IsFormed sign ∧ Spaced summand.tokens chars ∧ side.extend (sign, summand) = next := by
  refine ⟨exists_of_add_eq_ok reads, ?_⟩
  rintro ⟨summand, formed, spaced, rfl⟩
  have stripped := (Text.spaced_stripBoth (formed.isSolid reads)).mpr spaced
  cases summand with
  | zero =>
    have plus : sign ≠ .minus := fun minus => by cases formed.sign minus
    rw [(Text.spaced_singleton_iff (formed.isSolid reads ['0'] List.mem_cons_self)).mp spaced]
    simp [RightSide.add, RightSide.extend, Summand.intercept?, Summand.terms,
      Summand.groupTerms, plus]
  | one =>
    rw [(Text.spaced_singleton_iff (formed.isSolid reads ['1'] List.mem_cons_self)).mp spaced]
    simp [RightSide.add, RightSide.extend, Summand.intercept?, Summand.terms,
      Summand.groupTerms]
  | interaction first rest =>
    exact add_of_names side formed (by simp [Summand.names]) ⟨rfl, rfl⟩ (by rintro ⟨⟩) stripped
  | crossing first second rest =>
    exact add_of_names side formed (by simp [Summand.names]) ⟨rfl, rfl⟩ (by rintro ⟨⟩) stripped
  | group written =>
    have own := formed.group written rfl
    obtain ⟨before, inner, after, first, last, _, rfl⟩ := reads.exists_inner own spaced
    rw [stripBoth_parenthesized first last] at stripped ⊢
    have read := (reads.read inner _).mpr ⟨written, own, stripped, rfl⟩
    have plus : sign ≠ .minus := fun minus => by cases formed.sign minus
    rw [RightSide.add, if_neg (by simp), if_neg plus,
      if_pos (by simp [List.getLast?_cons]), read]
    simp [RightSide.extend, Summand.intercept?, Summand.terms, Summand.groupTerms, bind,
      Except.bind, pure, Except.pure]

/-- Summands are added exactly from texts of them. -/
theorem foldlM_add_eq_ok_iff (reads : ReadsParenthesized γ readGroup) {whole : List Char}
    {pieces : List (Sign × List Char)} {start last : RightSide} :
    (pieces.map trimmed).foldlM (RightSide.add readGroup whole) start = .ok last ↔
      ∃ side : Side γ, List.Forall₂ IsPieceOf side pieces ∧
        (∀ summand ∈ side, summand.2.IsFormed summand.1) ∧
          side.foldl RightSide.extend start = last := by
  induction pieces generalizing start with
  | nil =>
    constructor
    · intro done
      obtain rfl := Except.ok.inj done
      exact ⟨[], .nil, by simp, rfl⟩
    · rintro ⟨side, each, _, rfl⟩
      cases each
      rfl
  | cons piece rest ih =>
    obtain ⟨sign, chars⟩ := piece
    rw [List.map_cons, List.foldlM_cons, bind_eq_ok]
    constructor
    · rintro ⟨next, first, others⟩
      obtain ⟨summand, formed, spaced, rfl⟩ := (add_eq_ok_iff reads).mp first
      obtain ⟨side, each, all, rfl⟩ := ih.mp others
      exact ⟨(sign, summand) :: side, .cons ⟨rfl, spaced⟩ each,
        List.forall_mem_cons.mpr ⟨formed, all⟩, rfl⟩
    · rintro ⟨_, each, all, rfl⟩
      obtain ⟨⟨_, summand⟩, side, ⟨same, spaced⟩, later, rfl⟩ :=
        List.forall₂_cons_right_iff.mp each
      obtain rfl := same
      obtain ⟨formed, all⟩ := List.forall_mem_cons.mp all
      exact ⟨_, (add_eq_ok_iff reads).mpr ⟨summand, formed, spaced, rfl⟩, ih.mpr
        ⟨side, later, all, rfl⟩⟩

/-- A right side is read exactly from a text of it. -/
theorem readSide_eq_ok_iff (reads : ReadsParenthesized γ readGroup) {chars : List Char}
    {right : RightSide} : readSide readGroup chars = .ok right ↔ ∃ side : Side γ,
      side.IsFormed ∧ Spaced side.tokens chars ∧
        ⟨side.intercept, side.flatMap fun summand => summand.2.terms, side.groupTerms⟩ = right := by
  rw [readSide, bind_eq_ok]
  constructor
  · rintro ⟨summands, cut, done⟩
    obtain ⟨pieces, some, split, rfl⟩ := readSummands_eq_ok cut
    obtain ⟨side, each, formed, rfl⟩ := (foldlM_add_eq_ok_iff reads).mp done
    refine ⟨side, ⟨?_, formed⟩, spaced_tokens_iff.mpr ⟨pieces, split, each⟩, ?_⟩
    · rintro rfl
      cases each
      exact some rfl
    · rw [foldl_extend]
      rfl
  · rintro ⟨side, formed, spaced, rfl⟩
    obtain ⟨pieces, split, each⟩ := spaced_tokens_iff.mp spaced
    have some : pieces ≠ [] := by
      rintro rfl
      cases each
      exact formed.nonempty rfl
    have whole : ∀ entry ∈ pieces, IsWhole entry.2 ∧ ¬AreBlank entry.2 := by
      intro entry mem
      obtain ⟨summand, listed, _, spaced⟩ := exists_mem_of_forall₂ each.flip mem
      exact (formed.summands summand listed).isWhole reads spaced
    refine ⟨_, readSummands_of_isCut some split whole, ?_⟩
    refine (foldlM_add_eq_ok_iff reads).mpr ⟨side, each, formed.summands, ?_⟩
    rw [foldl_extend]
    rfl

/-- Nothing in parentheses is read where nothing may stand in them. -/
theorem readsParenthesized_empty : ReadsParenthesized Empty refuseGroup where
  enclosed := nofun
  read inner term := by
    constructor
    · exact fun refused => nomatch refused
    · exact fun ⟨written, _⟩ => nomatch written

end Formula

end Multilevel
