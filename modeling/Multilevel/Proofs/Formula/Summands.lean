import Multilevel.Proofs.Formula.Grammar

/-!
# Cutting right sides at their signs

A right side is cut into pieces with a sign in front of each, where the plus in front of the first
piece is left out (`IsCut`). Whatever the reader cuts is cut in this way, and it finds every such
cut whose pieces keep their signs inside of parentheses (`IsWhole`).
-/
namespace Multilevel.Formula

open Text (AreBlank IsSolid Spaced stripBoth)

/-- The text of pieces with the sign in front of each. -/
def signed (pieces : List (Sign × List Char)) : List Char :=
  pieces.flatMap fun (sign, piece) => sign.mark :: piece

/-- Whether a text consists of pieces with their signs. -/
def IsCut (chars : List Char) : List (Sign × List Char) → Prop
  | (.plus, piece) :: rest => chars = piece ++ signed rest
  | pieces => ∃ blanks, AreBlank blanks ∧ chars = blanks ++ signed pieces

/-- A piece without the blanks at its ends. -/
def trimmed (piece : Sign × List Char) : Sign × List Char := (piece.1, stripBoth piece.2)

/-- How many parentheses are open after some characters, given how many were before, unless one is
closed that was not open or a sign stands outside of parentheses. -/
def depth? : Nat → List Char → Option Nat
  | depth, [] => some depth
  | depth, c :: rest =>
    if c = '(' then depth? (depth + 1) rest
    else if c = ')' then if depth = 0 then none else depth? (depth - 1) rest
    else if depth = 0 ∧ (c = '+' ∨ c = '-') then none
    else depth? depth rest

/-- Whether a piece has its parentheses closed and its signs inside of them. -/
def IsWhole (piece : List Char) : Prop := depth? 0 piece = some 0

/-- Characters that are no parentheses, and no signs outside of them, leave the depth as it is. -/
theorem depth?_append {depth : Nat} {chars : List Char}
    (plain : ∀ c ∈ chars, c ≠ '(' ∧ c ≠ ')' ∧ (depth = 0 → c ≠ '+' ∧ c ≠ '-'))
    (rest : List Char) : depth? depth (chars ++ rest) = depth? depth rest := by
  induction chars with
  | nil => rfl
  | cons c more ih =>
    obtain ⟨opened, closed, signs⟩ := plain c (by simp)
    have unsigned : ¬(depth = 0 ∧ (c = '+' ∨ c = '-')) := fun ⟨zero, sign⟩ =>
      sign.elim (signs zero).1 (signs zero).2
    rw [List.cons_append, depth?, if_neg opened, if_neg closed, if_neg unsigned]
    exact ih fun other mem => plain other (by simp [mem])

/-- Characters without parentheses and signs are whole. -/
theorem isWhole_of_plain {chars : List Char}
    (plain : ∀ c ∈ chars, c ≠ '(' ∧ c ≠ ')' ∧ c ≠ '+' ∧ c ≠ '-') : IsWhole chars := by
  have same : depth? 0 (chars ++ []) = depth? 0 [] := depth?_append
    (fun c mem => ⟨(plain c mem).1, (plain c mem).2.1, fun _ => (plain c mem).2.2⟩) []
  rwa [List.append_nil] at same

/-- Blanks are neither parentheses nor signs. -/
theorem plain_of_isBlank {c : Char} (blank : Text.isBlank c = true) :
    c ≠ '(' ∧ c ≠ ')' ∧ c ≠ '+' ∧ c ≠ '-' := by
  refine ⟨?_, ?_, ?_, ?_⟩ <;> rintro rfl <;> exact absurd blank (by decide)

/-- Characters in parentheses, with blanks around these, are whole if there are no other parentheses
among them. -/
theorem isWhole_parenthesized {before inner after : List Char} (first : AreBlank before)
    (last : AreBlank after) (free : '(' ∉ inner ∧ ')' ∉ inner) :
    IsWhole (before ++ '(' :: (inner ++ ')' :: after)) := by
  have closing : depth? 0 after = some 0 :=
    isWhole_of_plain fun c mem => plain_of_isBlank (last c mem)
  have inside : depth? 1 (inner ++ ')' :: after) = depth? 1 (')' :: after) :=
    depth?_append (fun c mem => ⟨fun same => free.1 (same ▸ mem), fun same => free.2 (same ▸ mem),
      by simp⟩) _
  rw [IsWhole, depth?_append fun c mem => by simpa using plain_of_isBlank (first c mem), depth?,
    if_pos rfl, inside]
  simpa [depth?] using closing

section Cutting

variable {whole : List Char}

/-- The reader goes through characters whose signs stand in parentheses. -/
theorem cutSummands_append {piece : List Char} {cut : Cut} {depth : Nat}
    (deep : depth? cut.depth piece = some depth) (rest : List Char) :
    cutSummands whole (piece ++ rest) cut = cutSummands whole rest
      { cut with depth, started := piece.reverse ++ cut.started } := by
  induction piece generalizing cut with
  | nil =>
    obtain rfl := Option.some.inj deep
    rfl
  | cons c more ih =>
    rw [depth?] at deep
    rw [List.cons_append, cutSummands]
    split at deep
    · rename_i opened
      rw [if_pos opened, ih deep]
      simp
    rename_i opened
    rw [if_neg opened]
    split at deep
    · rename_i closed
      split at deep
      · cases deep
      · rename_i inside
        rw [if_pos closed, if_neg inside, ih deep]
        simp
    rename_i closed
    rw [if_neg closed]
    split at deep
    · cases deep
    · rename_i unsigned
      have later := @ih { cut with started := c :: cut.started } deep
      rw [if_neg fun plus => unsigned ⟨plus.1, .inl plus.2⟩,
        if_neg fun minus => unsigned ⟨minus.1, .inr minus.2⟩]
      simpa using later

/-- The reader goes through a whole piece and is outside of parentheses behind it. -/
theorem cutSummands_whole {piece started : List Char} {sign : Sign}
    {finished : List (Sign × List Char)} (closed : IsWhole piece) (rest : List Char) :
    cutSummands whole (piece ++ rest) ⟨0, sign, started, finished⟩ =
      cutSummands whole rest ⟨0, sign, piece.reverse ++ started, finished⟩ :=
  @cutSummands_append whole piece ⟨0, sign, started, finished⟩ 0 closed rest

/-- The reader ends a piece at the sign behind it. -/
theorem cutSummands_mark (sign : Sign) {cut : Cut} (outside : cut.depth = 0) (rest : List Char) :
    cutSummands whole (sign.mark :: rest) cut =
      (cut.next sign whole >>= fun next => cutSummands whole rest next) := by
  cases sign <;> simp [cutSummands, Sign.mark, outside]

/-- The reader finds whole pieces behind the sign of the first one. -/
theorem cutSummands_signed {sign : Sign} {piece : List Char}
    {pieces finished : List (Sign × List Char)}
    (each : ∀ entry ∈ (sign, piece) :: pieces, IsWhole entry.2 ∧ ¬AreBlank entry.2) :
    cutSummands whole (piece ++ signed pieces) ⟨0, sign, [], finished⟩ =
      .ok (finished.reverse ++ ((sign, piece) :: pieces).map trimmed) := by
  induction pieces generalizing sign piece finished with
  | nil =>
    obtain ⟨closed, occupied⟩ := each (sign, piece) (by simp)
    have some : (stripBoth piece).isEmpty = false := by
      simpa [Text.stripBoth_eq_nil_iff] using occupied
    rw [cutSummands_whole closed]
    simp [signed, cutSummands, some, trimmed]
  | cons second rest ih =>
    obtain ⟨next, following⟩ := second
    obtain ⟨closed, occupied⟩ := each (sign, piece) (by simp)
    have some : (stripBoth piece).isEmpty = false := by
      simpa [Text.stripBoth_eq_nil_iff] using occupied
    have later := @ih next following ((sign, stripBoth piece) :: finished)
      fun entry mem => each entry (by simp [mem])
    rw [cutSummands_whole closed, signed, List.flatMap_cons, List.cons_append,
      cutSummands_mark next rfl]
    simpa [Cut.next, some, bind, Except.bind, trimmed, signed] using later

/-- What the reader finds in the rest of a text: the piece that was started goes on, or there are only
blanks in front of a minus. -/
def Cut.Finds (cut : Cut) (chars : List Char) (result : List (Sign × List Char)) : Prop :=
  ∃ piece pieces, chars = piece ++ signed pieces ∧
    (result = cut.finished.reverse ++
        ((cut.sign, cut.started.reverse ++ piece) :: pieces).map trimmed ∨
      cut.finished = [] ∧ cut.sign = .plus ∧ AreBlank (cut.started.reverse ++ piece) ∧
        (∃ following rest, pieces = (.minus, following) :: rest) ∧ result = pieces.map trimmed)

/-- A character that ends no piece joins the one that was started. -/
theorem Cut.Finds.join {cut : Cut} {c : Char} {chars : List Char} {depth : Nat}
    {result : List (Sign × List Char)}
    (found : Cut.Finds { cut with depth, started := c :: cut.started } chars result) :
    cut.Finds (c :: chars) result := by
  obtain ⟨piece, pieces, rfl, found⟩ := found
  exact ⟨c :: piece, pieces, rfl, by simpa using found⟩

/-- A sign ends the piece that was started, or stands in front of the first one. -/
theorem Cut.Finds.mark {cut next : Cut} {sign : Sign} {chars : List Char}
    {result : List (Sign × List Char)} (moved : cut.next sign whole = .ok next)
    (found : next.Finds chars result) : cut.Finds (sign.mark :: chars) result := by
  obtain ⟨piece, pieces, rfl, found⟩ := found
  refine ⟨[], (sign, piece) :: pieces, by simp [signed], ?_⟩
  simp only [Cut.next] at moved
  split at moved
  · -- The started piece is finished, so what is found goes on behind it.
    obtain rfl := Except.ok.inj moved
    rcases found with rfl | ⟨none, _⟩
    · exact .inl (by simp [trimmed])
    · cases none
  · rename_i blank
    rw [ite_error_eq_ok] at moved
    obtain ⟨front, rfl⟩ := moved.imp_right Except.ok.inj
    rw [Bool.not_eq_true', Bool.not_eq_false, List.isEmpty_iff, Text.stripBoth_eq_nil_iff] at blank
    simp only [Bool.or_eq_true, Bool.not_eq_eq_eq_not, Bool.not_true, List.isEmpty_eq_false_iff,
      decide_eq_true_eq, not_or, ne_eq, not_not] at front
    obtain ⟨⟨none, notMinus⟩, notPlus⟩ := front
    have plus : cut.sign = .plus := by cases same : cut.sign <;> simp_all
    have minus : sign = .minus := by cases sign <;> simp_all
    subst minus
    rcases found with rfl | ⟨_, other, _⟩
    · exact .inr ⟨none, plus, by simpa using blank, ⟨piece, pieces, rfl⟩, by simp [none]⟩
    · cases other

/-- What the reader returns is what it finds. -/
theorem cutSummands_eq_ok {chars : List Char} {cut : Cut} {result : List (Sign × List Char)}
    (done : cutSummands whole chars cut = .ok result) : cut.Finds chars result := by
  induction chars generalizing cut with
  | nil =>
    rw [cutSummands, ite_error_eq_ok] at done
    replace done := done.2
    dsimp only at done
    rw [ite_error_eq_ok] at done
    obtain rfl := Except.ok.inj done.2
    exact ⟨[], [], rfl, .inl (by simp [trimmed])⟩
  | cons c rest ih =>
    rw [cutSummands] at done
    split at done
    · exact (ih done).join
    split at done
    · rw [ite_error_eq_ok] at done
      exact (ih done.2).join
    split at done
    · rename_i plus
      obtain ⟨next, moved, done⟩ := bind_eq_ok.mp done
      have split : cut.Finds (Sign.plus.mark :: rest) result := (ih done).mark moved
      rwa [plus.2]
    split at done
    · rename_i minus
      obtain ⟨next, moved, done⟩ := bind_eq_ok.mp done
      have split : cut.Finds (Sign.minus.mark :: rest) result := (ih done).mark moved
      rwa [minus.2]
    · exact (ih done).join

/-- The summands that are read are the pieces of a cut. -/
theorem readSummands_eq_ok {chars : List Char} {result : List (Sign × List Char)}
    (done : readSummands chars = .ok result) :
    ∃ pieces, pieces ≠ [] ∧ IsCut chars pieces ∧ result = pieces.map trimmed := by
  obtain ⟨piece, pieces, rfl, rfl | ⟨_, _, blank, ⟨following, rest, rfl⟩, rfl⟩⟩ :=
    cutSummands_eq_ok done
  · exact ⟨(.plus, piece) :: pieces, by simp, rfl, rfl⟩
  · exact ⟨(.minus, following) :: rest, by simp, ⟨piece, blank, rfl⟩, rfl⟩

/-- The pieces of a cut are read as the summands if they are whole. -/
theorem readSummands_of_isCut {chars : List Char} {pieces : List (Sign × List Char)}
    (some : pieces ≠ []) (cut : IsCut chars pieces)
    (each : ∀ entry ∈ pieces, IsWhole entry.2 ∧ ¬AreBlank entry.2) :
    readSummands chars = .ok (pieces.map trimmed) := by
  match pieces, cut with
  | [], _ => exact absurd rfl some
  | (.plus, piece) :: rest, cut =>
    rw [readSummands, show chars = piece ++ signed rest from cut]
    exact cutSummands_signed each
  | (.minus, piece) :: rest, cut =>
    obtain ⟨blanks, blank, rfl⟩ := cut
    have closed : IsWhole blanks :=
      isWhole_of_plain fun c mem => plain_of_isBlank (blank c mem)
    have none : (stripBoth blanks).isEmpty = true := by
      rw [Text.stripBoth_eq_nil_iff.mpr blank]
      rfl
    rw [readSummands, cutSummands_whole closed, signed, List.flatMap_cons,
      List.cons_append, cutSummands_mark .minus rfl]
    have found := @cutSummands_signed (blanks ++ signed ((.minus, piece) :: rest)) .minus piece rest
      [] each
    simpa [Cut.next, none, bind, Except.bind, signed] using found

end Cutting

section Tokens

variable {γ : Type} [Parenthesized γ]

/-- Whether a piece holds the tokens of a summand of its sign. -/
def IsPieceOf (summand : Sign × Summand γ) (piece : Sign × List Char) : Prop :=
  summand.1 = piece.1 ∧ Spaced summand.2.tokens piece.2

/-- Tokens in front of signed summands stand in front of the pieces of these. -/
theorem spaced_signedTokens {front : List (List Char)} {side : Side γ} {chars : List Char} :
    Spaced (front ++ side.signedTokens) chars ↔ ∃ piece pieces, chars = piece ++ signed pieces ∧
      Spaced front piece ∧ List.Forall₂ IsPieceOf side pieces := by
  induction side generalizing front chars with
  | nil =>
    constructor
    · intro spaced
      exact ⟨chars, [], by simp [signed], by simpa [Side.signedTokens] using spaced, .nil⟩
    · rintro ⟨piece, pieces, rfl, spaced, none⟩
      cases none
      simpa [Side.signedTokens, signed] using spaced
  | cons summand rest ih =>
    have tokens : front ++ Side.signedTokens (summand :: rest) =
        front ++ [summand.1.mark] :: (summand.2.tokens ++ Side.signedTokens rest) := rfl
    rw [tokens, Text.spaced_mark]
    constructor
    · rintro ⟨piece, _, rfl, before, after⟩
      obtain ⟨next, pieces, rfl, here, later⟩ := ih.mp after
      exact ⟨piece, (summand.1, next) :: pieces, by simp [signed], before, .cons ⟨rfl, here⟩ later⟩
    · rintro ⟨piece, _, rfl, before, each⟩
      obtain ⟨⟨sign, next⟩, pieces, ⟨same, here⟩, later, rfl⟩ :=
        List.forall₂_cons_left_iff.mp each
      refine ⟨piece, next ++ signed pieces, ?_, before, ih.mpr ⟨next, pieces, rfl, here, later⟩⟩
      rw [show summand.1 = sign from same]
      simp [signed]

/-- The tokens of a right side stand in the pieces of a cut. -/
theorem spaced_tokens_iff {side : Side γ} {chars : List Char} :
    Spaced side.tokens chars ↔ ∃ pieces, IsCut chars pieces ∧ List.Forall₂ IsPieceOf side pieces := by
  have behind (side : Side γ) : Spaced side.signedTokens chars ↔ ∃ pieces,
      (∃ blanks, AreBlank blanks ∧ chars = blanks ++ signed pieces) ∧
        List.Forall₂ IsPieceOf side pieces := by
    rw [← List.nil_append side.signedTokens, spaced_signedTokens]
    constructor
    · rintro ⟨blanks, pieces, split, blank, each⟩
      exact ⟨pieces, ⟨blanks, blank, split⟩, each⟩
    · rintro ⟨pieces, ⟨blanks, blank, split⟩, each⟩
      exact ⟨blanks, pieces, split, blank, each⟩
  match side with
  | [] =>
    refine (behind []).trans (exists_congr fun pieces => and_congr_left fun each => ?_)
    cases each
    rfl
  | (.minus, summand) :: rest =>
    refine (behind _).trans (exists_congr fun pieces => and_congr_left fun each => ?_)
    obtain ⟨⟨sign, piece⟩, pieces, ⟨same, _⟩, _, rfl⟩ := List.forall₂_cons_left_iff.mp each
    obtain rfl : Sign.minus = sign := same
    rfl
  | (.plus, summand) :: rest =>
    rw [show Side.tokens ((.plus, summand) :: rest) = summand.tokens ++ Side.signedTokens rest from
      rfl, spaced_signedTokens]
    constructor
    · rintro ⟨piece, pieces, split, here, each⟩
      exact ⟨(.plus, piece) :: pieces, split, .cons ⟨rfl, here⟩ each⟩
    · rintro ⟨_, cut, each⟩
      obtain ⟨⟨sign, piece⟩, pieces, ⟨same, here⟩, later, rfl⟩ :=
        List.forall₂_cons_left_iff.mp each
      obtain rfl : Sign.plus = sign := same
      exact ⟨piece, pieces, cut, here, later⟩

end Tokens

end Multilevel.Formula
