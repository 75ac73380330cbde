import Mathlib
import Multilevel.Proofs.Formula.Reading
import Multilevel.Value.Canonical
import Multilevel.Value.Reader

/-!
# Tokens of canonical text

Canonical text is made of words, numbers and texts in quotes. A text in quotes is read back with
whatever follows it (`Value.readText_canonicalChars`). Words and numbers are tokens: they consist of
characters that no mark is made of, so that a token ends where a mark follows. The kind of a value
shows in its canonical text (`Value.canonicalKind_eq`).
-/
namespace Multilevel.Value

open Formula (StopsAt)

section Texts

/-- Four hexadecimal digits are read back as the unit that they spell. -/
theorem readUnit_hexDigits {unit : Nat} (small : unit < 0x10000) (rest : List Char) :
    readUnit (Text.hexDigits 4 unit ++ rest) = some (unit, rest) := by
  have digit : ∀ n < 16, (if (Nat.digitChar n).isDigit then some ((Nat.digitChar n).toNat - 48)
      else if 'a' ≤ Nat.digitChar n && Nat.digitChar n ≤ 'f' then
        some ((Nat.digitChar n).toNat - 87)
      else if 'A' ≤ Nat.digitChar n && Nat.digitChar n ≤ 'F' then
        some ((Nat.digitChar n).toNat - 55)
      else none) = some n := by decide
  have below (n : Nat) : n % 16 < 16 := Nat.mod_lt n (by omega)
  simp only [Text.hexDigits, List.nil_append, List.cons_append, readUnit, digit _ (below _),
    bind, Option.bind, pure]
  congr 2
  omega

/-- A unit that is no half of a pair is read back as a character. -/
theorem readEscape_unit {unit : Nat} (small : unit < 0x10000)
    (whole : unit < 0xd800 ∨ 0xe000 ≤ unit) (rest : List Char) :
    readEscape ('u' :: Text.hexDigits 4 unit ++ rest) = some (Char.ofNat unit, rest) := by
  have one : (decide (unit < 0xd800) || decide (0xe000 ≤ unit)) = true := by simpa using whole
  simp only [List.cons_append, readEscape, readUnit_hexDigits small, bind, Option.bind, one,
    if_true, pure]

/-- The two halves of a pair are read back as one character. -/
theorem readEscape_pair {above : Nat} (range : above < 0x100000) (rest : List Char) :
    readEscape ('u' :: Text.hexDigits 4 (0xd800 + above / 0x400) ++
      unitEscape (0xdc00 + above % 0x400) ++ rest) = some (Char.ofNat (above + 0x10000), rest) := by
  have high : (decide (0xd800 + above / 0x400 < 0xd800) ||
      decide (0xe000 ≤ 0xd800 + above / 0x400)) = false := by
    simp only [Bool.or_eq_false_iff, decide_eq_false_iff_not]
    omega
  have low : (decide (0xd800 + above / 0x400 < 0xdc00) &&
      decide (0xdc00 ≤ 0xdc00 + above % 0x400) &&
      decide (0xdc00 + above % 0x400 < 0xe000)) = true := by
    simp only [Bool.and_eq_true, decide_eq_true_eq]
    omega
  have joined : 0x10000 + (0xd800 + above / 0x400 - 0xd800) * 0x400 +
      (0xdc00 + above % 0x400 - 0xdc00) = above + 0x10000 := by omega
  simp only [List.append_assoc, List.cons_append, readEscape, unitEscape,
    readUnit_hexDigits (show 0xd800 + above / 0x400 < 0x10000 by omega),
    readUnit_hexDigits (show 0xdc00 + above % 0x400 < 0x10000 by omega),
    bind, Option.bind, high, low, joined, if_true, Bool.false_eq_true, if_false, pure]

/-- A character stands in canonical text as it is, or as an escape that is read back. -/
theorem canonicalChar_cases (c : Char) :
    (canonicalChar c = [c] ∧ c ≠ '"' ∧ c ≠ '\\') ∨
      ∃ escape, canonicalChar c = '\\' :: escape ∧
        ∀ rest, readEscape (escape ++ rest) = some (c, rest) := by
  unfold canonicalChar
  split_ifs with quote backslash feed back tab page behind plain small
  · exact .inr ⟨_, rfl, fun rest => by rw [eq_of_beq quote]; rfl⟩
  · exact .inr ⟨_, rfl, fun rest => by rw [eq_of_beq backslash]; rfl⟩
  · exact .inr ⟨_, rfl, fun rest => by rw [eq_of_beq feed]; rfl⟩
  · exact .inr ⟨_, rfl, fun rest => by rw [eq_of_beq back]; rfl⟩
  · exact .inr ⟨_, rfl, fun rest => by rw [eq_of_beq tab]; rfl⟩
  · exact .inr ⟨_, rfl, fun rest => by rw [eq_of_beq page]; rfl⟩
  · exact .inr ⟨_, rfl, fun rest => by rw [eq_of_beq behind]; rfl⟩
  · exact .inl ⟨rfl, by simpa using quote, by simpa using backslash⟩
  · -- No character is half of a pair.
    have whole : c.toNat < 0xd800 ∨ 0xe000 ≤ c.toNat := c.valid.imp id And.left
    refine .inr ⟨_, rfl, fun rest => ?_⟩
    rw [readEscape_unit small whole, Char.ofNat_toNat]
  · have range : c.toNat < 0x110000 := c.valid.elim (fun low => lt_trans low (by norm_num)) And.right
    refine .inr ⟨_, rfl, fun rest => ?_⟩
    have read := readEscape_pair (show c.toNat - 0x10000 < 0x100000 by omega) rest
    rwa [Nat.sub_add_cancel (by omega), Char.ofNat_toNat] at read

/-- The characters of a text are read back up to the quote behind them. -/
theorem readText_canonicalChars (chars done rest : List Char) {fuel : Nat}
    (enough : chars.length < fuel) :
    readText fuel done (chars.flatMap canonicalChar ++ '"' :: rest) =
      some (String.ofList (done.reverse ++ chars), rest) := by
  induction chars generalizing done fuel with
  | nil =>
    obtain ⟨more, rfl⟩ := Nat.exists_eq_succ_of_ne_zero enough.ne_bot
    simp [readText]
  | cons c chars ih =>
    obtain ⟨more, rfl⟩ := Nat.exists_eq_succ_of_ne_zero (Nat.ne_zero_of_lt enough)
    have later := ih (c :: done) (Nat.lt_of_succ_lt_succ enough)
    rw [List.reverse_cons, List.append_assoc] at later
    rw [List.flatMap_cons, List.append_assoc]
    rcases canonicalChar_cases c with ⟨plain, quote, backslash⟩ | ⟨escape, escaped, read⟩
    · rw [plain, List.singleton_append, readText]
      · exact later
      · exact quote
      · exact backslash
    · rw [escaped, List.cons_append, readText]
      simp only [read, bind, Option.bind]
      exact later

/-- A text in quotes, character by character. -/
theorem toList_canonicalText (text : String) :
    (canonicalText text).toList = '"' :: (text.toList.flatMap canonicalChar ++ ['"']) := by
  rw [canonicalText, String.toList_ofList, List.cons_append]

/-- A text in quotes tells where it ends and what it stands for. -/
theorem canonicalText_append_inj {s t : String} {rest rest' : List Char}
    (same : (canonicalText s).toList ++ rest = (canonicalText t).toList ++ rest') :
    s = t ∧ rest = rest' := by
  rw [toList_canonicalText, toList_canonicalText, List.cons_append, List.cons_append,
    List.append_assoc, List.append_assoc] at same
  have chars := (List.cons.inj same).2
  have left := readText_canonicalChars s.toList [] rest
    (show _ < s.toList.length + t.toList.length + 1 by omega)
  have right := readText_canonicalChars t.toList [] rest'
    (show _ < s.toList.length + t.toList.length + 1 by omega)
  rw [List.singleton_append] at chars
  rw [chars] at left
  obtain ⟨text, rest⟩ := Prod.mk.inj (Option.some.inj (left.symm.trans right))
  simp only [List.reverse_nil, List.nil_append, String.ofList_toList] at text
  exact ⟨text, rest⟩

/-- Different texts stand differently in quotes. -/
theorem canonicalText_injective : Function.Injective canonicalText := fun s t same =>
  (canonicalText_append_inj (show (canonicalText s).toList ++ [] = (canonicalText t).toList ++ [] by
    rw [same])).1

end Texts

section Tokens

/-- Whether a character may stand in a word or a number. -/
def isTokenChar (c : Char) : Bool := c.isAlphanum || c == '-' || c == '+' || c == '.'

/-- Whether characters are a word or a number. -/
structure IsToken (chars : List Char) : Prop where
  /-- There is one at least. -/
  nonempty : chars ≠ []
  /-- No mark is among them. -/
  tokenChars : ∀ c ∈ chars, isTokenChar c = true

/-- Whether two pieces of text that are followed by marks, or by nothing, tell where they end. -/
def AreSeparable (x y : List Char) : Prop :=
  ∀ rest rest', StopsAt isTokenChar rest → StopsAt isTokenChar rest' →
    x ++ rest = y ++ rest' → x = y ∧ rest = rest'

/-- Which of two pieces is named first does not matter. -/
theorem AreSeparable.symm {x y : List Char} (separable : AreSeparable x y) : AreSeparable y x := by
  intro rest rest' stops stops' same
  obtain ⟨one, two⟩ := separable rest' rest stops' stops same.symm
  exact ⟨one.symm, two.symm⟩

/-- Two tokens tell where they end. -/
theorem IsToken.separable {x y : List Char} (one : IsToken x) (two : IsToken y) :
    AreSeparable x y := by
  intro rest rest' stops stops' same
  obtain ⟨taken, dropped⟩ := Formula.run_append one.tokenChars stops
  obtain ⟨taken', dropped'⟩ := Formula.run_append two.tokenChars stops'
  exact ⟨by rw [← taken, same, taken'], by rw [← dropped, same, dropped']⟩

/-- A token does not begin like a piece that begins with a mark. -/
theorem IsToken.separable_cons {x y : List Char} {c : Char} (token : IsToken x)
    (mark : isTokenChar c = false) : AreSeparable x (c :: y) := by
  intro rest rest' _ _ same
  obtain ⟨d, more, rfl⟩ := List.exists_cons_of_ne_nil token.nonempty
  have first := token.tokenChars d List.mem_cons_self
  rw [(List.cons.inj same).1, mark] at first
  cases first

/-- Pieces that begin with different characters are told apart. -/
theorem separable_cons_cons {x y : List Char} {c d : Char} (differ : c ≠ d) :
    AreSeparable (c :: x) (d :: y) :=
  fun _ _ _ _ same => absurd (List.cons.inj same).1 differ

end Tokens

section Numbers

/-- The digits of a natural number. -/
theorem isDigit_of_mem_toString {n : Nat} {c : Char} (mem : c ∈ (toString n).toList) :
    c.isDigit = true := by
  rw [show (toString n).toList = Nat.toDigits 10 n from Nat.toList_repr] at mem
  exact Nat.isDigit_of_mem_toDigits (by omega) (by omega) mem

/-- Digits are characters of numbers. -/
theorem isNumberChar_of_mem_toString (n : Nat) :
    ∀ c ∈ (toString n).toList, isNumberChar c = true := by
  intro c mem
  simp [isNumberChar, isDigit_of_mem_toString mem]

/-- The text of an integer is made of digits and a sign. -/
theorem toList_int (n : Int) : (toString n).toList ≠ [] ∧
    ∀ c ∈ (toString n).toList, (c.isDigit || c == '-') = true := by
  cases n with
  | ofNat n =>
    have digits : (toString n).toList ≠ [] := by
      rw [show (toString n).toList = Nat.toDigits 10 n from Nat.toList_repr]
      exact Nat.toDigits_ne_nil
    exact ⟨digits, fun c mem => by simp [isDigit_of_mem_toString mem]⟩
  | negSucc n =>
    have spelled : (toString (Int.negSucc n)).toList = '-' :: (toString (n + 1)).toList :=
      String.toList_append
    rw [spelled]
    refine ⟨List.cons_ne_nil _ _, List.forall_mem_cons.mpr ⟨by decide, fun c mem => ?_⟩⟩
    simp [isDigit_of_mem_toString mem]

/-- Whether characters are a number that is no integer: there is a point or a power of ten. -/
structure IsReal (chars : List Char) : Prop where
  /-- The characters are those of numbers. -/
  numeric : ∀ c ∈ chars, isNumberChar c = true
  /-- An integer has neither a point nor a power of ten. -/
  marked : ∃ c ∈ chars, c = '.' ∨ c = 'e'

/-- Characters of numbers around a real number. -/
theorem IsReal.append {before chars after : List Char} (real : IsReal chars)
    (first : ∀ c ∈ before, isNumberChar c = true) (last : ∀ c ∈ after, isNumberChar c = true) :
    IsReal (before ++ chars ++ after) := by
  obtain ⟨c, mem, mark⟩ := real.marked
  refine ⟨List.forall_mem_append.mpr ⟨List.forall_mem_append.mpr ⟨first, real.numeric⟩, last⟩, c, ?_,
    mark⟩
  exact List.mem_append_left _ (List.mem_append_right _ mem)

/-- A power of ten marks a real number. -/
theorem isReal_powerText (power : Int) : IsReal (Number.powerText power).toList := by
  have sign (mark : Char) (sign : isNumberChar mark = true) : IsReal ['e', mark] :=
    ⟨List.forall_mem_cons.mpr ⟨rfl, List.forall_mem_singleton.mpr sign⟩, 'e', by simp, .inr rfl⟩
  have start : IsReal (if power < 0 then "e-" else "e+").toList := by
    split
    · exact sign '-' rfl
    · exact sign '+' rfl
  have zero : ∀ c ∈ (if (toString power.natAbs).length < 2 then "0" else "").toList,
      isNumberChar c = true := by
    split
    · exact List.forall_mem_singleton.mpr rfl
    · exact List.forall_mem_nil _
  have real := start.append (List.forall_mem_nil _)
    (List.forall_mem_append.mpr ⟨zero, isNumberChar_of_mem_toString power.natAbs⟩)
  rwa [List.nil_append, ← String.toList_append, ← String.toList_append, ← String.append_assoc]
    at real

/-- A positive decimal is displayed as a real number. -/
theorem isReal_decimal (d : Number.Decimal) : IsReal (Number.displayed.decimal d).toList := by
  have digits := isNumberChar_of_mem_toString d.digits
  have zeros (n : Nat) : ∀ c ∈ List.replicate n '0', isNumberChar c = true := fun c mem => by
    rw [(List.mem_replicate.mp mem).2]
    rfl
  have zero : isNumberChar '0' = true := rfl
  have point : IsReal ['.'] := ⟨List.forall_mem_singleton.mpr rfl, '.', by simp, .inl rfl⟩
  unfold Number.Layout.decimal
  dsimp only
  generalize (toString d.digits).toList = chars at digits ⊢
  split_ifs with power below whole keeps
  · rw [String.toList_append, String.toList_ofList]
    have real (power : Int) {mantissa : List Char}
        (numeric : ∀ c ∈ mantissa, isNumberChar c = true) :
        IsReal (mantissa ++ (Number.powerText power).toList) := by
      have real := (isReal_powerText power).append numeric (List.forall_mem_nil _)
      rwa [List.append_nil] at real
    rcases chars with _ | ⟨c, _ | ⟨d, rest⟩⟩
    · exact real _ digits
    · exact real _ digits
    · rw [List.forall_mem_cons] at digits
      exact real _ (List.forall_mem_cons.mpr ⟨digits.1, List.forall_mem_cons.mpr ⟨rfl, digits.2⟩⟩)
  · have real := point.append (List.forall_mem_singleton.mpr zero)
      (List.forall_mem_append.mpr ⟨zeros (-(d.exponent + chars.length - 1) - 1).toNat, digits⟩)
    rw [String.toList_append, String.toList_ofList]
    simpa using real
  · have real := point.append (List.forall_mem_append.mpr ⟨digits, zeros d.exponent.toNat⟩)
      (List.forall_mem_singleton.mpr zero)
    rw [String.toList_append, String.toList_ofList]
    simpa using real
  · exact absurd rfl keeps
  · have real := point.append
      (fun c mem => digits c (List.mem_of_mem_take (i := (d.exponent + chars.length - 1 + 1).toNat) mem))
      (fun c mem => digits c (List.mem_of_mem_drop (i := (d.exponent + chars.length - 1 + 1).toNat) mem))
    rw [String.toList_ofList, List.splitAt_eq]
    simpa using real

/-- How a floating-point number stands in canonical text, and how it is displayed: as words of their
own, or both times as a real number. -/
inductive WritesFloat : String → String → Prop where
  | nan : WritesFloat "NaN" "nan"
  | infinity : WritesFloat "Infinity" "inf"
  | minusInfinity : WritesFloat "-Infinity" "-inf"
  | real {text : String} (real : IsReal text.toList) : WritesFloat text text

/-- The two forms of a floating-point number. -/
theorem writesFloat (x : Float) : WritesFloat (canonicalFloat x) (Number.display x) := by
  rw [canonicalFloat, Number.display, Number.Layout.write]
  cases Number.Reading.ofFloat x with
  | nan => exact .nan
  | infinite negative =>
    cases negative
    · exact .infinity
    · exact .minusInfinity
  | finite negative significand exponent lowest =>
    refine .real ?_
    have sign : ∀ c ∈ (Number.signText negative).toList, isNumberChar c = true := by
      cases negative
      · exact List.forall_mem_nil _
      · exact List.forall_mem_singleton.mpr rfl
    have number : IsReal (if significand = 0 then Number.displayed.zero
        else Number.displayed.decimal (Number.shortest significand exponent lowest)).toList := by
      split
      · exact ⟨List.all_eq_true.mp rfl, '.', by decide, .inl rfl⟩
      · exact isReal_decimal _
    have real := number.append sign (List.forall_mem_nil _)
    rw [List.append_nil, ← String.toList_append] at real
    exact real

/-- A word with a letter that stands in no number is not a real number. -/
theorem IsReal.ne_word {text word : String} (real : IsReal text.toList)
    (letter : word.toList.all isNumberChar = false) : text ≠ word := by
  rintro rfl
  rw [List.all_eq_true.mpr real.numeric] at letter
  cases letter

/-- Floating-point numbers have one canonical text exactly if they are displayed alike. -/
theorem canonicalFloat_eq_iff {x y : Float} :
    canonicalFloat x = canonicalFloat y ↔ Number.display x = Number.display y := by
  have one := writesFloat x
  have two := writesFloat y
  generalize canonicalFloat x = canonical, Number.display x = displayed at one ⊢
  generalize canonicalFloat y = canonical', Number.display y = displayed' at two ⊢
  cases one with
  | real real =>
    cases two with
    | real => exact Iff.rfl
    | nan | infinity | minusInfinity => exact iff_of_false (real.ne_word rfl) (real.ne_word rfl)
  | nan | infinity | minusInfinity =>
    cases two with
    | real real => exact iff_of_false (real.ne_word rfl).symm (real.ne_word rfl).symm
    | nan | infinity | minusInfinity => decide

/-- A word or a number is a token. -/
theorem isToken_of_all {chars : List Char} (nonempty : chars ≠ [])
    (all : chars.all isTokenChar = true) : IsToken chars := ⟨nonempty, List.all_eq_true.mp all⟩

/-- Characters of numbers stand in tokens. -/
theorem isTokenChar_of_isNumberChar {c : Char} (number : isNumberChar c = true) :
    isTokenChar c = true := by
  simp only [isNumberChar, Bool.or_eq_true, beq_iff_eq] at number
  rcases number with ((((digit | rfl) | rfl) | rfl) | rfl) | rfl
  · simp [isTokenChar, Char.isAlphanum, digit]
  all_goals rfl

/-- Nothing is a token. -/
theorem isToken_null : IsToken (canonical null).toList := isToken_of_all (by decide) rfl

/-- A truth value is a token. -/
theorem isToken_bool (b : Bool) : IsToken (canonical (bool b)).toList := by
  cases b <;> exact isToken_of_all (by decide) rfl

/-- An integer is a token. -/
theorem isToken_int (n : Int) : IsToken (toString n).toList := by
  obtain ⟨nonempty, digits⟩ := toList_int n
  refine ⟨nonempty, fun c mem => ?_⟩
  rcases Bool.or_eq_true_iff.mp (digits c mem) with digit | minus
  · simp [isTokenChar, Char.isAlphanum, digit]
  · simp [isTokenChar, minus]

/-- A floating-point number is a token. -/
theorem isToken_float (x : Float) : IsToken (canonicalFloat x).toList := by
  have two := writesFloat x
  generalize canonicalFloat x = canonical, Number.display x = displayed at two ⊢
  cases two with
  | nan | infinity | minusInfinity => exact isToken_of_all (by decide) rfl
  | real real =>
    obtain ⟨c, mem, _⟩ := real.marked
    exact ⟨List.ne_nil_of_mem mem, fun d inside => isTokenChar_of_isNumberChar (real.numeric d inside)⟩

end Numbers

section Kinds

/-- The kind of the value that characters are the canonical text of. -/
def canonicalKind : List Char → String
  | 'n' :: _ => "NoneType"
  | 't' :: _ | 'f' :: _ => "bool"
  | '"' :: _ => "str"
  | '[' :: _ => "list"
  | '\x7b' :: _ => "dict"
  | chars => if chars.all fun c => c.isDigit || c == '-' then "int" else "float"

/-- Canonical text of characters of numbers is that of a number. -/
theorem canonicalKind_of_numeric {chars : List Char}
    (numeric : ∀ c ∈ chars, isNumberChar c = true) : canonicalKind chars =
      if chars.all fun c => c.isDigit || c == '-' then "int" else "float" := by
  unfold canonicalKind
  split <;> first | rfl | exact absurd (numeric _ List.mem_cons_self) (by decide)

/-- The kind of a value shows in its canonical text. -/
theorem canonicalKind_eq {value : Value} (data : value.kindName ≠ "function") :
    canonicalKind (canonical value).toList = value.kindName := by
  cases value with
  | null => rfl
  | bool b => cases b <;> rfl
  | int n =>
    obtain ⟨_, digits⟩ := toList_int n
    have numeric : ∀ c ∈ (toString n).toList, isNumberChar c = true := fun c mem => by
      rcases Bool.or_eq_true_iff.mp (digits c mem) with digit | minus
      · simp [isNumberChar, digit]
      · simp [isNumberChar, minus]
    rw [canonical, canonicalKind_of_numeric numeric, if_pos (List.all_eq_true.mpr digits)]
    rfl
  | float x =>
    have two := writesFloat x
    rw [canonical]
    generalize canonicalFloat x = canonical, Number.display x = displayed at two ⊢
    cases two with
    | nan | infinity | minusInfinity => rfl
    | real real =>
      obtain ⟨c, mem, mark⟩ := real.marked
      rw [canonicalKind_of_numeric real.numeric, if_neg]
      · rfl
      · intro digits
        have digit := List.all_eq_true.mp digits c mem
        rcases mark with rfl | rfl <;> cases digit
  | text s =>
    rw [canonical, toList_canonicalText]
    rfl
  | list items =>
    rw [canonical, String.toList_append, String.toList_append]
    rfl
  | record fields =>
    rw [canonical, String.toList_append, String.toList_append]
    rfl
  | function => exact absurd rfl data

end Kinds

end Multilevel.Value
