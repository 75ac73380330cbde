import Mathlib
import Multilevel.Text.Blank
import Multilevel.Text.Split

/-!
# Tokens with blanks between them

Whether a text consists of given tokens, with any blanks before, between and after them. A token
that is a single mark cuts such a text into two (`spaced_mark`), and blanks around it do not
matter (`spaced_stripBoth`).
-/
namespace Multilevel.Text

/-- Whether there are only blanks among some characters. -/
def AreBlank (chars : List Char) : Prop := ∀ c ∈ chars, isBlank c = true

/-- Whether a text consists of tokens, with any blanks before, between and after them. -/
def Spaced : List (List Char) → List Char → Prop
  | [], chars => AreBlank chars
  | token :: rest, chars =>
    ∃ blanks after, chars = blanks ++ (token ++ after) ∧ AreBlank blanks ∧ Spaced rest after

/-- A token without blanks. -/
structure IsSolid (token : List Char) : Prop where
  /-- There is a character. -/
  nonempty : token ≠ []
  /-- No character is a blank. -/
  solid : ∀ c ∈ token, isBlank c = false

section Blanks

/-- Blanks of two texts. -/
theorem areBlank_append {first second : List Char} :
    AreBlank (first ++ second) ↔ AreBlank first ∧ AreBlank second := List.forall_mem_append

/-- Blanks at the front are taken off. -/
theorem stripStart_append {blanks : List Char} (blank : AreBlank blanks) (rest : List Char) :
    stripStart (blanks ++ rest) = stripStart rest :=
  List.dropWhile_append_of_pos blank

/-- Nothing is taken off in front of a solid token. -/
theorem stripStart_solid {token : List Char} (solid : IsSolid token) (rest : List Char) :
    stripStart (token ++ rest) = token ++ rest := by
  cases token with
  | nil => exact absurd rfl solid.nonempty
  | cons c more => simp [stripStart, solid.solid c (by simp)]

/-- Blanks are taken off altogether. -/
theorem stripStart_eq_nil_iff {chars : List Char} : stripStart chars = [] ↔ AreBlank chars :=
  List.dropWhile_eq_nil_iff

/-- What is taken off at the front are blanks. -/
theorem exists_stripStart (chars : List Char) :
    ∃ blanks, AreBlank blanks ∧ chars = blanks ++ stripStart chars :=
  ⟨chars.takeWhile isBlank, fun _ mem => List.mem_takeWhile_imp mem,
    List.takeWhile_append_dropWhile.symm⟩

/-- What is taken off at the end are blanks. -/
theorem exists_stripEnd (chars : List Char) :
    ∃ blanks, AreBlank blanks ∧ chars = stripEnd chars ++ blanks := by
  obtain ⟨blanks, blank, split⟩ := exists_stripStart chars.reverse
  refine ⟨blanks.reverse, fun c mem => blank c (List.mem_reverse.mp mem), ?_⟩
  rw [stripEnd, ← List.reverse_append, ← stripStart, ← split, List.reverse_reverse]

/-- What is taken off at both ends are blanks. -/
theorem exists_stripBoth (chars : List Char) : ∃ before after, AreBlank before ∧ AreBlank after ∧
    chars = before ++ (stripBoth chars ++ after) := by
  obtain ⟨before, first, front⟩ := exists_stripStart chars
  obtain ⟨after, last, back⟩ := exists_stripEnd (stripStart chars)
  refine ⟨before, after, first, last, ?_⟩
  rw [stripBoth, ← back, ← front]

/-- Blanks at the end are taken off. -/
theorem stripEnd_of_areBlank {chars : List Char} (blank : AreBlank chars) : stripEnd chars = [] := by
  rw [stripEnd, List.reverse_eq_nil_iff, List.dropWhile_eq_nil_iff]
  exact fun c mem => blank c (List.mem_reverse.mp mem)

/-- Nothing is taken off before the end of a solid token. -/
theorem stripEnd_append {token : List Char} (solid : IsSolid token) (before rest : List Char) :
    stripEnd (before ++ (token ++ rest)) = before ++ (token ++ stripEnd rest) := by
  have turned : IsSolid token.reverse :=
    ⟨by simpa using solid.nonempty, fun c mem => solid.solid c (List.mem_reverse.mp mem)⟩
  have stops : (token.reverse ++ before.reverse).dropWhile isBlank =
      token.reverse ++ before.reverse := stripStart_solid turned before.reverse
  rw [stripEnd, stripEnd, List.reverse_append, List.reverse_append, List.append_assoc,
    List.dropWhile_append, stops]
  cases left : rest.reverse.dropWhile isBlank with
  | nil => simp
  | cons c more => simp

/-- Nothing but blanks is taken off altogether. -/
theorem stripBoth_eq_nil_iff {chars : List Char} : stripBoth chars = [] ↔ AreBlank chars := by
  constructor
  · intro none
    obtain ⟨before, after, first, last, split⟩ := exists_stripBoth chars
    rw [split, none]
    exact areBlank_append.mpr ⟨first, last⟩
  · intro blank
    rw [stripBoth, stripStart_eq_nil_iff.mpr blank]
    rfl

end Blanks

/-- Blanks may be added at the front. -/
theorem Spaced.blanks_append {tokens : List (List Char)} {blanks chars : List Char}
    (blank : AreBlank blanks) (spaced : Spaced tokens chars) : Spaced tokens (blanks ++ chars) := by
  cases tokens with
  | nil => exact areBlank_append.mpr ⟨blank, spaced⟩
  | cons token rest =>
    obtain ⟨before, after, rfl, first, others⟩ := spaced
    exact ⟨blanks ++ before, after, by simp, areBlank_append.mpr ⟨blank, first⟩, others⟩

/-- The tokens of two texts, one behind the other. -/
theorem spaced_append {left right : List (List Char)} {chars : List Char} :
    Spaced (left ++ right) chars ↔
      ∃ first second, chars = first ++ second ∧ Spaced left first ∧ Spaced right second := by
  induction left generalizing chars with
  | nil =>
    constructor
    · exact fun spaced => ⟨[], chars, rfl, by simp [Spaced, AreBlank], spaced⟩
    · rintro ⟨first, second, rfl, blank, spaced⟩
      exact spaced.blanks_append blank
  | cons token rest ih =>
    constructor
    · rintro ⟨blanks, after, rfl, blank, spaced⟩
      obtain ⟨first, second, rfl, left, right⟩ := ih.mp spaced
      exact ⟨blanks ++ (token ++ first), second, by simp, ⟨blanks, first, rfl, blank, left⟩, right⟩
    · rintro ⟨_, second, rfl, ⟨blanks, first, rfl, blank, left⟩, right⟩
      exact ⟨blanks, first ++ second, by simp, blank, ih.mpr ⟨first, second, rfl, left, right⟩⟩

/-- Blanks may be added at the end. -/
theorem Spaced.append_blanks {tokens : List (List Char)} {chars blanks : List Char}
    (spaced : Spaced tokens chars) (blank : AreBlank blanks) : Spaced tokens (chars ++ blanks) := by
  rw [← List.append_nil tokens, spaced_append]
  exact ⟨chars, blanks, rfl, spaced, blank⟩

/-- A token stands for itself. -/
theorem spaced_self (token : List Char) : Spaced [token] token :=
  ⟨[], [], by simp, by simp [AreBlank], by simp [Spaced, AreBlank]⟩

/-- A token among others cuts the text into two. -/
theorem spaced_cut {left right : List (List Char)} {token chars : List Char} :
    Spaced (left ++ token :: right) chars ↔
      ∃ first second, chars = first ++ (token ++ second) ∧ Spaced left first ∧
        Spaced right second := by
  rw [spaced_append]
  constructor
  · rintro ⟨first, _, rfl, before, blanks, second, rfl, blank, after⟩
    exact ⟨first ++ blanks, second, by simp, before.append_blanks blank, after⟩
  · rintro ⟨first, second, rfl, before, after⟩
    exact ⟨first, token ++ second, rfl, before, [], second, rfl, by simp [AreBlank], after⟩

/-- A mark among the tokens cuts the text into two. -/
theorem spaced_mark {left right : List (List Char)} {mark : Char} {chars : List Char} :
    Spaced (left ++ [mark] :: right) chars ↔
      ∃ first second, chars = first ++ mark :: second ∧ Spaced left first ∧
        Spaced right second := spaced_cut

/-- A solid token at the front is what the text starts with behind its blanks. -/
theorem spaced_cons_iff {token : List Char} {rest : List (List Char)} {chars : List Char}
    (solid : IsSolid token) :
    Spaced (token :: rest) chars ↔ ∃ after, stripStart chars = token ++ after ∧ Spaced rest after := by
  constructor
  · rintro ⟨blanks, after, rfl, blank, others⟩
    exact ⟨after, by rw [stripStart_append blank, stripStart_solid solid], others⟩
  · rintro ⟨after, split, others⟩
    obtain ⟨blanks, blank, whole⟩ := exists_stripStart chars
    exact ⟨blanks, after, by rw [whole, split], blank, others⟩

/-- What stands between two marks at the ends of a text. -/
theorem spaced_between {opening closing : Char} {tokens : List (List Char)} {inner : List Char}
    (first : isBlank opening = false) (last : isBlank closing = false) :
    Spaced ([opening] :: (tokens ++ [[closing]])) (opening :: (inner ++ [closing])) ↔
      Spaced tokens inner := by
  have solid : IsSolid [opening] := ⟨by simp, List.forall_mem_singleton.mpr first⟩
  have front : stripStart (opening :: (inner ++ [closing])) = opening :: (inner ++ [closing]) :=
    stripStart_solid solid (inner ++ [closing])
  rw [spaced_cons_iff solid]
  constructor
  · rintro ⟨after, split, spaced⟩
    rw [front] at split
    obtain rfl := List.tail_eq_of_cons_eq split
    obtain ⟨before, behind, same, inside, blank⟩ := spaced_mark.mp spaced
    -- The closing mark is the last character, so nothing stands behind it.
    rcases List.eq_nil_or_concat behind with rfl | ⟨more, c, rfl⟩
    · obtain rfl := List.append_cancel_right same
      exact inside
    · have ends := congrArg List.getLast? same
      simp only [List.concat_eq_append, ← List.cons_append, ← List.append_assoc,
        List.getLast?_append, List.getLast?_singleton, Option.some_or, Option.some.injEq] at ends
      have both := blank c (by simp)
      rw [← ends, last] at both
      cases both
  · intro inside
    exact ⟨inner ++ [closing], front, spaced_mark.mpr ⟨inner, [], rfl, inside, by
      simp [Spaced, AreBlank]⟩⟩

/-- A character of a text is a blank or stands in a token. -/
theorem Spaced.mem_cases {tokens : List (List Char)} {chars : List Char}
    (spaced : Spaced tokens chars) {c : Char} (mem : c ∈ chars) :
    isBlank c = true ∨ ∃ token ∈ tokens, c ∈ token := by
  induction tokens generalizing chars with
  | nil => exact .inl (spaced c mem)
  | cons token rest ih =>
    obtain ⟨blanks, after, rfl, blank, others⟩ := spaced
    rcases List.mem_append.mp mem with front | mem
    · exact .inl (blank c front)
    rcases List.mem_append.mp mem with here | later
    · exact .inr ⟨token, by simp, here⟩
    · rcases ih others later with blank | ⟨other, inside, there⟩
      · exact .inl blank
      · exact .inr ⟨other, List.mem_cons_of_mem _ inside, there⟩

/-- A text has the characters of its tokens. -/
theorem Spaced.mem_of_mem {tokens : List (List Char)} {chars : List Char}
    (spaced : Spaced tokens chars) {token : List Char} (mem : token ∈ tokens) {c : Char}
    (here : c ∈ token) : c ∈ chars := by
  obtain ⟨before, after, rfl⟩ := List.append_of_mem mem
  obtain ⟨_, _, rfl, _, _, _, rfl, _⟩ := spaced_append.mp spaced
  simp [here]

/-- Blanks at the ends of a text do not matter to its tokens. -/
theorem spaced_stripBoth {tokens : List (List Char)} {chars : List Char}
    (solid : ∀ token ∈ tokens, IsSolid token) :
    Spaced tokens (stripBoth chars) ↔ Spaced tokens chars := by
  constructor
  · intro spaced
    obtain ⟨before, after, first, last, split⟩ := exists_stripBoth chars
    rw [split]
    exact (spaced.append_blanks last).blanks_append first
  · intro spaced
    -- First the blanks at the end, token by token, then those in front of the first one.
    have finish : ∀ {tokens : List (List Char)} {chars : List Char},
        (∀ token ∈ tokens, IsSolid token) → Spaced tokens chars →
          Spaced tokens (stripEnd chars) := by
      intro tokens
      induction tokens with
      | nil =>
        intro chars _ blank
        rw [stripEnd_of_areBlank blank]
        simp [Spaced, AreBlank]
      | cons token rest ih =>
        rintro _ solid ⟨blanks, after, rfl, blank, others⟩
        rw [stripEnd_append (solid token (by simp))]
        exact ⟨blanks, _, rfl, blank, ih (fun other mem => solid other (by simp [mem])) others⟩
    refine finish solid ?_
    cases tokens with
    | nil =>
      rw [stripStart_eq_nil_iff.mpr spaced]
      simp [Spaced, AreBlank]
    | cons token rest =>
      obtain ⟨blanks, after, rfl, blank, others⟩ := spaced
      rw [stripStart_append blank, stripStart_solid (solid token (by simp))]
      exact ⟨[], after, rfl, by simp [AreBlank], others⟩

/-- A text of one solid token is that token with blanks around it. -/
theorem spaced_singleton_iff {token chars : List Char} (solid : IsSolid token) :
    Spaced [token] chars ↔ stripBoth chars = token := by
  constructor
  · rintro ⟨blanks, after, rfl, blank, last⟩
    have ends := stripEnd_append solid [] after
    rw [List.nil_append, List.nil_append, stripEnd_of_areBlank last, List.append_nil] at ends
    rw [stripBoth, stripStart_append blank, stripStart_solid solid, ends]
  · rintro rfl
    obtain ⟨before, after, first, last, split⟩ := exists_stripBoth chars
    exact ⟨before, after, split, first, last⟩

/-- Words with a mark between them, as tokens. -/
def joined (mark : Char) (words : List String) : List (List Char) :=
  (words.map String.toList).intersperse [mark]

/-- The first of several words stands in front of the mark. -/
theorem joined_cons (mark : Char) (first second : String) (rest : List String) :
    joined mark (first :: second :: rest) =
      [first.toList] ++ [mark] :: joined mark (second :: rest) := rfl

/-- Joined words are the words and marks. -/
theorem of_mem_joined {mark : Char} {words : List String} {token : List Char}
    (mem : token ∈ joined mark words) :
    (∃ word ∈ words, token = word.toList) ∨ token = [mark] := by
  induction words with
  | nil => cases mem
  | cons first rest ih =>
    cases rest with
    | nil => exact .inl ⟨first, by simp, List.mem_singleton.mp mem⟩
    | cons second rest =>
      rw [joined_cons, List.mem_append, List.mem_singleton, List.mem_cons] at mem
      rcases mem with here | between | later
      · exact .inl ⟨first, by simp, here⟩
      · exact .inr between
      · exact (ih later).imp_left fun ⟨word, mem, same⟩ => ⟨word, by simp [mem], same⟩

/-- Texts of single words, joined with a mark, are a text of the words with the mark between
them. -/
theorem spaced_intercalate {mark : Char} {words : List String} {pieces : List (List Char)}
    (some : words ≠ [])
    (each : List.Forall₂ (fun word piece => Spaced [word.toList] piece) words pieces) :
    Spaced (joined mark words) (List.intercalate [mark] pieces) := by
  induction each with
  | nil => exact absurd rfl some
  | @cons first piece rest more here others ih =>
    cases others with
    | nil => simpa [joined] using here
    | @cons second next rest more there later =>
      rw [joined_cons, spaced_mark]
      exact ⟨piece, _, by simp, here, ih (by simp)⟩

/-- A text of words with a mark between them has the words as its pieces, if the mark is in none of
them. -/
theorem spaced_joined {mark : Char} (solid : isBlank mark = false) {words : List String}
    {chars : List Char} (some : words ≠ []) (free : ∀ word ∈ words, mark ∉ word.toList) :
    Spaced (joined mark words) chars ↔
      List.Forall₂ (fun word piece => Spaced [word.toList] piece) words (splitOn mark chars) := by
  constructor
  · intro spaced
    -- A piece of a single word does not have the mark.
    have single {word : String} {piece : List Char} (clear : mark ∉ word.toList)
        (spaced : Spaced [word.toList] piece) : splitOn mark piece = [piece] := by
      refine splitOn_of_not_mem fun mem => ?_
      rcases spaced.mem_cases mem with blank | ⟨token, here, inside⟩
      · rw [solid] at blank
        cases blank
      · rw [List.mem_singleton.mp here] at inside
        exact clear inside
    induction words generalizing chars with
    | nil => exact absurd rfl some
    | cons first rest ih =>
      cases rest with
      | nil =>
        rw [single (free first (by simp)) spaced]
        exact .cons spaced .nil
      | cons second rest =>
        rw [joined_cons, spaced_mark] at spaced
        obtain ⟨left, right, rfl, here, others⟩ := spaced
        rw [splitOn_joined, single (free first (by simp)) here]
        exact .cons here (ih (by simp) (fun word mem => free word (by simp [mem])) others)
  · intro pieces
    rw [← intercalate_splitOn mark chars]
    exact spaced_intercalate some pieces

end Multilevel.Text
