import Mathlib
import Multilevel.Program.Line
import Multilevel.Text.Split

/-!
# Lines and line feeds

A text with two blanks in front of each line, where nothing but a line feed ends a line (`indent`).
The code of a user is indented line by line, whatever ends its lines; this gives the same text, less
an empty line at the end, exactly if line feeds alone end its lines (`indentFragment_iff`).
-/
namespace Multilevel.Text

section Pieces

variable {c : Char} {mark : List Char} {pieces : List (List Char)}

/-- What stands in a sequence of pieces stands in the mark between them or in one of them. -/
theorem mem_of_mem_intercalate (mem : c ∈ mark.intercalate pieces) :
    c ∈ mark ∨ ∃ piece ∈ pieces, c ∈ piece := by
  induction pieces with
  | nil => simp at mem
  | cons first rest ih =>
    cases rest with
    | nil => exact .inr ⟨first, List.mem_cons_self, by simpa using mem⟩
    | cons second more =>
      rw [List.intercalate_cons_cons, List.mem_append, List.mem_append] at mem
      rcases mem with (here | between) | later
      · exact .inr ⟨first, List.mem_cons_self, here⟩
      · exact .inl between
      · exact (ih later).imp_right fun ⟨piece, listed, inside⟩ =>
          ⟨piece, List.mem_cons_of_mem first listed, inside⟩

/-- What stands in a piece stands in the sequence. -/
theorem mem_intercalate_of_mem {piece : List Char} (listed : piece ∈ pieces) (mem : c ∈ piece) :
    c ∈ mark.intercalate pieces := by
  induction pieces with
  | nil => cases listed
  | cons first rest ih =>
    cases rest with
    | nil =>
      rw [List.mem_singleton.mp listed] at mem
      simpa using mem
    | cons second more =>
      rw [List.intercalate_cons_cons, List.mem_append, List.mem_append]
      rcases List.mem_cons.mp listed with rfl | later
      · exact .inl (.inl mem)
      · exact .inr (ih later)

end Pieces

/-- Whether nothing but line feeds ends the lines of a text. -/
def HasPlainLines (text : String) : Prop := ∀ c ∈ text.toList, isLineBreak c = true → c = '\n'

instance (text : String) : Decidable (HasPlainLines text) :=
  inferInstanceAs (Decidable (∀ c ∈ text.toList, isLineBreak c = true → c = '\n'))

/-- Line feeds alone end the lines of texts with line feeds between them exactly if they do in each
text. -/
theorem hasPlainLines_intercalate {texts : List String} :
    HasPlainLines ("\n".intercalate texts) ↔ ∀ text ∈ texts, HasPlainLines text := by
  constructor
  · intro plain text listed c mem breaks
    refine plain c ?_ breaks
    rw [String.toList_intercalate]
    exact mem_intercalate_of_mem (List.mem_map_of_mem listed) mem
  · intro plain c mem breaks
    rw [String.toList_intercalate] at mem
    rcases mem_of_mem_intercalate mem with between | ⟨piece, listed, inside⟩
    · exact List.mem_singleton.mp between
    · obtain ⟨text, there, rfl⟩ := List.mem_map.mp listed
      exact plain text there c inside breaks

/-- A text with two blanks in front of each of its lines, which line feeds alone end. -/
def indent (text : String) : String :=
  "\n".intercalate ((splitOn '\n' text.toList).map fun line => "  " ++ String.ofList line)

/-- Two texts with a line feed between them are indented one by one. -/
theorem indent_append (first second : String) :
    indent (first ++ "\n" ++ second) = indent first ++ "\n" ++ indent second := by
  have chars : (first ++ "\n" ++ second).toList = first.toList ++ '\n' :: second.toList := by
    simp
  have some (text : String) :
      (splitOn '\n' text.toList).map (fun line => "  " ++ String.ofList line) ≠ [] :=
    fun none => splitOn_ne_nil '\n' text.toList (List.map_eq_nil_iff.mp none)
  rw [indent, chars, splitOn_joined, List.map_append,
    String.intercalate_append_of_ne_nil (some first) (some second), indent, indent]

/-- Texts with line feeds between them are indented one by one. -/
theorem indent_intercalate {texts : List String} (some : texts ≠ []) :
    indent ("\n".intercalate texts) = "\n".intercalate (texts.map indent) := by
  induction texts with
  | nil => exact absurd rfl some
  | cons text rest ih =>
    cases rest with
    | nil => simp
    | cons next more =>
      rw [String.intercalate_cons_cons, indent_append, ih (List.cons_ne_nil _ _)]
      exact String.intercalate_cons_cons.symm

/-- Indenting loses no character of a line. -/
theorem mem_indent {c : Char} (other : c ≠ '\n') {text : String} (mem : c ∈ text.toList) :
    c ∈ (indent text).toList := by
  rw [← intercalate_splitOn '\n' text.toList] at mem
  rw [indent, String.toList_intercalate]
  rcases mem_of_mem_intercalate mem with between | ⟨piece, listed, inside⟩
  · exact absurd (List.mem_singleton.mp between) other
  · refine mem_intercalate_of_mem (List.mem_map_of_mem (List.mem_map_of_mem listed)) ?_
    simp [inside]

/-- Lines without an empty one at the end. -/
def dropEmptyEnd : List (List Char) → List (List Char)
  | [] => []
  | [line] => if line.isEmpty then [] else [line]
  | line :: next :: rest => line :: dropEmptyEnd (next :: rest)

/-- Only an empty line at the end is dropped. -/
theorem dropEmptyEnd_cases (lines : List (List Char)) :
    dropEmptyEnd lines = lines ∨ dropEmptyEnd lines ++ [[]] = lines := by
  fun_induction dropEmptyEnd lines with
  | case1 => exact .inl rfl
  | case2 line empty => exact .inr (by rw [List.isEmpty_iff.mp empty]; rfl)
  | case3 => exact .inl rfl
  | case4 line next rest ih =>
    exact ih.imp (congrArg (line :: ·)) (congrArg (line :: ·))

/-- A first line is kept before others. -/
theorem dropEmptyEnd_cons (line : List Char) {rest : List (List Char)} (some : rest ≠ []) :
    dropEmptyEnd (line :: rest) = line :: dropEmptyEnd rest := by
  cases rest with
  | nil => exact absurd rfl some
  | cons next more => rfl

/-- Where line feeds alone end lines, the lines are those between them, less an empty one at the
end. -/
theorem linesFrom_of_plain {started chars : List Char}
    (plain : ∀ c ∈ chars, isLineBreak c = true → c = '\n') (free : '\n' ∉ started) :
    linesFrom started chars = dropEmptyEnd (splitOn '\n' (started.reverse ++ chars)) := by
  have whole {line : List Char} (free : '\n' ∉ line) : splitOn '\n' line.reverse = [line.reverse] :=
    splitOn_of_not_mem fun mem => free (List.mem_reverse.mp mem)
  fun_induction linesFrom started chars with
  | case1 started empty =>
    rw [List.isEmpty_iff.mp empty]
    rfl
  | case2 started some =>
    rw [List.append_nil, whole free, dropEmptyEnd, List.isEmpty_reverse, if_neg some]
  | case3 =>
    -- A carriage return before a line feed ends a line, and is none itself.
    exact absurd (plain '\r' List.mem_cons_self (by decide)) (by decide)
  | case4 started c rest _ breaks ih =>
    have fed : c = '\n' := plain c List.mem_cons_self breaks
    rw [fed, splitOn_joined, whole free, List.singleton_append,
      dropEmptyEnd_cons _ (splitOn_ne_nil _ _),
      ih (fun d mem => plain d (List.mem_cons_of_mem c mem)) List.not_mem_nil]
    rfl
  | case5 started c rest _ inside ih =>
    have free' : '\n' ∉ c :: started := by
      rw [List.mem_cons, not_or]
      exact ⟨fun same => inside (same ▸ by decide), free⟩
    rw [ih (fun d mem => plain d (List.mem_cons_of_mem c mem)) free', List.reverse_cons,
      List.append_assoc]
    rfl

/-- No line has a character that ends lines. -/
theorem isLineBreak_of_mem_linesFrom {started chars line : List Char}
    (listed : line ∈ linesFrom started chars) {c : Char} (mem : c ∈ line) :
    c ∈ started ∨ isLineBreak c = false := by
  fun_induction linesFrom started chars with
  | case1 started empty => cases listed
  | case2 started some =>
    rw [List.mem_singleton.mp listed] at mem
    exact .inl (List.mem_reverse.mp mem)
  | case3 started rest ih =>
    rcases List.mem_cons.mp listed with rfl | later
    · exact .inl (List.mem_reverse.mp mem)
    · exact .inr ((ih later).resolve_left List.not_mem_nil)
  | case4 started d rest _ _ ih =>
    rcases List.mem_cons.mp listed with rfl | later
    · exact .inl (List.mem_reverse.mp mem)
    · exact .inr ((ih later).resolve_left List.not_mem_nil)
  | case5 started d rest _ inside ih =>
    rcases ih listed with here | other
    · rcases List.mem_cons.mp here with rfl | before
      · exact .inr (Bool.eq_false_iff.mpr inside)
      · exact .inl before
    · exact .inr other

end Multilevel.Text

namespace Multilevel.Program

open Text

/-- Indented code of the user has line feeds, and no other character that ends lines. -/
theorem hasPlainLines_indentFragment (code : String) : HasPlainLines (indentFragment code) := by
  intro c mem breaks
  rw [indentFragment, String.toList_intercalate] at mem
  rcases mem_of_mem_intercalate mem with between | ⟨piece, listed, inside⟩
  · exact List.mem_singleton.mp between
  · rw [List.map_map, splitLines, List.map_map] at listed
    obtain ⟨line, there, rfl⟩ := List.mem_map.mp listed
    have chars : c = ' ' ∨ c ∈ line := by simpa using inside
    rcases chars with rfl | within
    · exact absurd breaks (by decide)
    · rcases isLineBreak_of_mem_linesFrom there within with none | other
      · cases none
      · exact absurd (other.symm.trans breaks) (by decide)

/-- Where line feeds alone end lines, indented code is the code with blanks in front of each line,
less an empty line at the end. -/
theorem indentFragment_of_plain {code : String} (plain : HasPlainLines code) (some : code ≠ "") :
    indentFragment code = indent code ∨ indentFragment code ++ "\n  " = indent code := by
  have lines : linesFrom [] code.toList = dropEmptyEnd (splitOn '\n' code.toList) :=
    linesFrom_of_plain plain List.not_mem_nil
  have indented : indentFragment code = "\n".intercalate
      ((dropEmptyEnd (splitOn '\n' code.toList)).map fun line => "  " ++ String.ofList line) := by
    rw [indentFragment, splitLines, lines, List.map_map]
    rfl
  rcases dropEmptyEnd_cases (splitOn '\n' code.toList) with all | dropped
  · rw [all] at indented
    exact .inl indented
  · have others : dropEmptyEnd (splitOn '\n' code.toList) ≠ [] := by
      intro none
      rw [none, List.nil_append] at dropped
      have joined := intercalate_splitOn '\n' code.toList
      rw [← dropped] at joined
      exact some (String.toList_eq_nil_iff.mp (joined.symm.trans (by simp)))
    have whole : indent code = indentFragment code ++ "\n  " := by
      rw [indented]
      conv_lhs => rw [indent, ← dropped, List.map_append]
      rw [String.intercalate_append_of_ne_nil (by simpa using others) (by simp),
        String.append_assoc]
      rfl
    exact .inr whole.symm

/-- Indented code is the code with blanks in front of each line, less an empty line at the end,
exactly if line feeds alone end its lines. -/
theorem indentFragment_iff {code : String} (some : code ≠ "") :
    (indentFragment code = indent code ∨ indentFragment code ++ "\n  " = indent code) ↔
      HasPlainLines code := by
  refine ⟨fun same c mem breaks => ?_, fun plain => indentFragment_of_plain plain some⟩
  by_contra other
  -- Another character that ends lines is kept where blanks alone are added, but not where the code is
  -- taken apart into lines.
  have there := mem_indent other mem
  rcases same with same | same
  · rw [← same] at there
    exact other (hasPlainLines_indentFragment code c there breaks)
  · rw [← same, String.toList_append, List.mem_append] at there
    rcases there with there | there
    · exact other (hasPlainLines_indentFragment code c there breaks)
    · have blank : c = '\n' ∨ c = ' ' := by simpa using there
      rcases blank with rfl | rfl
      · exact other rfl
      · exact absurd breaks (by decide)

end Multilevel.Program
