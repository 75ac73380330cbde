import Mathlib
import Multilevel.Proofs.Model.Reuse
import Multilevel.Proofs.Text.Lines
import Multilevel.Program.Basic

/-!
# Code of the user in programs

Where the code of the user stands in a program, and what of it is changed. Behind the generated
lines of each block stand the fragments for it, in the order in which they were combined, with
blanks in front of each line; those of the functions stand as they are. They are not changed
otherwise exactly if line feeds alone end their lines (`Specification.pastes_fragments`): any other
character that ends lines becomes a line feed.
-/
namespace Multilevel

/-- Collections of fragments that are combined. -/
inductive FragmentSum where
  | collection (fragments : Fragments)
  | plus (first second : FragmentSum)

namespace FragmentSum

/-- The collection that they are combined to. -/
def collect : FragmentSum → Except SpecificationError Fragments
  | collection fragments => .ok fragments
  | plus first second => do
    let fragments ← first.collect
    fragments.append (← second.collect)

/-- The fragments in the order in which they are combined. -/
def fragments : FragmentSum → List Fragment
  | collection fragments => fragments.items
  | plus first second => first.fragments ++ second.fragments

/-- The collection holds the fragments in this order. -/
theorem items_of_collect {sum : FragmentSum} {collected : Fragments}
    (done : sum.collect = .ok collected) : collected.items = sum.fragments := by
  induction sum generalizing collected with
  | collection fragments =>
    obtain rfl := Except.ok.inj done
    rfl
  | plus first second left right =>
    obtain ⟨a, before, done⟩ := bind_eq_ok.mp done
    obtain ⟨b, behind, done⟩ := bind_eq_ok.mp done
    rw [Fragments.append, Fragments.ofList] at done
    split at done
    · obtain rfl := Except.ok.inj done
      rw [fragments, ← left before, ← right behind]
    · cases done

end FragmentSum

/-- A text with the end of its last line, if there is a text. -/
def ended (text : String) : String := if text.isEmpty then "" else text ++ "\n"

/-- Lines below each other, the last one ended. -/
theorem intercalate_ended (first : String) (rest : List String) :
    "\n".intercalate (first :: rest) ++ "\n" =
      String.join ((first :: rest).map fun text => text ++ "\n") := by
  induction rest generalizing first with
  | nil => simp [String.join]
  | cons next more ih =>
    rw [String.intercalate_cons_cons, String.append_assoc, ih]
    exact String.join_cons.symm

/-- Two texts below each other, one of which may be none. -/
theorem ended_intercalate (first second : String) :
    ended ("\n".intercalate ([first, second].filter fun text => !text.isEmpty)) =
      ended first ++ ended second := by
  by_cases none : first = "" <;> by_cases none' : second = "" <;>
    simp [ended, none, none', String.append_assoc]

namespace Program

/-- A block has its lines and then the code of the user, each with the end of its last line. -/
theorem blockText_eq (name : String) (lines : List Line) (fragment : String) :
    blockText name lines fragment =
      name ++ " \x7b\n" ++ (ended (joinLines 1 lines) ++ ended (indentFragment fragment)) ++
        "\x7d" := by
  have parts : (if fragment.isEmpty then [joinLines 1 lines]
      else [joinLines 1 lines, indentFragment fragment]).filter (fun part => !part.isEmpty) =
        [joinLines 1 lines, indentFragment fragment].filter fun part => !part.isEmpty := by
    split
    · rename_i none
      rw [String.isEmpty_iff.mp none]
      simp [indentFragment, Text.splitLines, Text.linesFrom, List.filter_cons]
    · rfl
  rw [blockText, parts, ← ended_intercalate]
  generalize "\n".intercalate _ = body
  by_cases none : body = ""
  · subst none
    show name ++ " \x7b\n\x7d" = name ++ " \x7b\n" ++ "" ++ "\x7d"
    rw [String.append_empty, String.append_assoc]
    rfl
  · simp only [ended, String.isEmpty_iff, none, if_false, String.append_assoc]
    rfl

/-- The generated text of a block. -/
def generatedText (p : Program) (block : Block) : String :=
  joinLines 1 ((p.statements block).flatMap (Statement.lines 0))

/-- The code of the user as it stands in a block. -/
def userText (p : Program) (block : Block) : String :=
  if block = .functions then p.fragments.code block else indentFragment (p.fragments.code block)

/-- Whether a block has a place in the program. -/
def isShown (p : Program) (block : Block) : Bool :=
  !(isOptional block && (p.statements block).isEmpty && (p.fragments.code block).isEmpty)

/-- The text of a block that has a place, with the end of its last line. -/
def sectionText (p : Program) (block : Block) : String :=
  blockTitle block ++ " \x7b\n" ++ (ended (p.generatedText block) ++ ended (p.userText block)) ++
    "\x7d\n"

variable (p : Program) (block : Block)

/-- A block that has no place has no text. -/
theorem blockSource_of_not_shown (hidden : p.isShown block = false) : p.blockSource block = "" := by
  rw [isShown, Bool.not_eq_false'] at hidden
  rw [blockSource, if_pos hidden]

/-- A block that has a place has its generated text and then the code of the user. -/
theorem blockSource_of_shown (shown : p.isShown block = true) :
    p.blockSource block ++ "\n" = p.sectionText block := by
  rw [isShown, Bool.not_eq_true'] at shown
  rw [blockSource, if_neg (by simp [shown]), sectionText]
  by_cases functions : block = .functions
  · subst functions
    have some : (p.fragments.code .functions).isEmpty = false := by
      simpa [isOptional, statements] using shown
    have generated : p.generatedText .functions = "" := by
      simp [generatedText, statements, joinLines]
    have texts : ended (p.generatedText .functions) ++ ended (p.userText .functions) =
        p.fragments.code .functions ++ "\n" := by
      simp [ended, generated, userText, some]
    rw [if_pos rfl, texts]
    simp only [String.append_assoc, blockTitle]
    rfl
  · rw [if_neg functions, blockText_eq, generatedText, userText, if_neg functions,
      String.append_assoc]
    rfl

/-- The text of a program: a first line and the blocks that have a place, in their order. -/
theorem source_eq : p.source = "// generated with hierstan\n" ++
    String.join ((Block.all.filter p.isShown).map p.sectionText) := by
  -- The parts that are joined are those with a text, and these are the blocks that have a place.
  have kept : (fun part : String => !part.isEmpty) ∘ p.blockSource = p.isShown := by
    funext block
    cases shown : p.isShown block with
    | false => simp [p.blockSource_of_not_shown block shown]
    | true =>
      have opened : '\x7b' ∈ (p.blockSource block ++ "\n").toList := by
        rw [p.blockSource_of_shown block shown, sectionText]
        simp
      have some : p.blockSource block ≠ "" := by
        intro none
        rw [none] at opened
        exact absurd opened (by decide)
      simp [some]
  have sections : ((Block.all.filter p.isShown).map p.blockSource).map (fun text => text ++ "\n") =
      (Block.all.filter p.isShown).map p.sectionText := by
    rw [List.map_map]
    exact List.map_congr_left fun block mem => p.blockSource_of_shown block (List.of_mem_filter mem)
  have filtered : ("// generated with hierstan" :: Block.all.map p.blockSource).filter
      (fun part => !part.isEmpty) =
        "// generated with hierstan" :: (Block.all.filter p.isShown).map p.blockSource := by
    rw [List.filter_cons_of_pos (by decide), List.filter_map, kept]
  rw [source, filtered, intercalate_ended, List.map_cons, String.join_cons, sections]
  rfl

end Program

namespace Specification

/-- How the code of the user stands in the program of a specification, for the texts of the
fragments of each block. -/
structure Pastes (s : Specification) (texts : Block → List String) : Prop where
  /-- In each block that has a place, the generated text, which depends on no fragment, is followed
  by the code of the user. -/
  layout : s.code = "// generated with hierstan\n" ++
    String.join ((Block.all.filter (Program.ofSpecification s).isShown).map fun block =>
      Program.blockTitle block ++ " \x7b\n" ++
        (ended ((Program.ofSpecification { s with fragments := .empty }).generatedText block) ++
          ended ((Program.ofSpecification s).userText block)) ++ "\x7d\n")
  /-- A block with code of the user has a place. -/
  shown : ∀ block, "\n".intercalate (texts block) ≠ "" →
    (Program.ofSpecification s).isShown block = true
  /-- Without a text, or with an empty one alone, there is no code of the user. -/
  nothing : ∀ block, "\n".intercalate (texts block) = "" →
    (Program.ofSpecification s).userText block = ""
  /-- The texts for the functions stand one below the other as they are. -/
  functions : (Program.ofSpecification s).userText .functions =
    "\n".intercalate (texts .functions)
  /-- The texts for another block stand one below the other with two blanks in front of each line,
  less an empty line at the end, exactly if line feeds alone end their lines. -/
  verbatim : ∀ block ≠ .functions, "\n".intercalate (texts block) ≠ "" →
    let user := (Program.ofSpecification s).userText block
    let indented := "\n".intercalate ((texts block).map Text.indent)
    (user = indented ∨ user ++ "\n  " = indented) ↔
      ∀ text ∈ texts block, Text.HasPlainLines text

/-- The generated text of a block depends on no fragment. -/
theorem generatedText_eq (s : Specification) (block : Block) :
    (Program.ofSpecification s).generatedText block =
      (Program.ofSpecification { s with fragments := .empty }).generatedText block := by
  cases block <;> rfl

/-- The fragments of a specification stand in its program. -/
theorem pastes_own (s : Specification) : s.Pastes fun block =>
    (s.fragments.items.filter fun f => f.block = block).map Fragment.code where
  layout := by
    have each : (Program.ofSpecification s).sectionText = fun block =>
        Program.blockTitle block ++ " \x7b\n" ++
          (ended ((Program.ofSpecification { s with fragments := .empty }).generatedText block) ++
            ended ((Program.ofSpecification s).userText block)) ++ "\x7d\n" := by
      funext block
      rw [Program.sectionText, s.generatedText_eq]
    rw [code, Program.source_eq, each]
  shown block some := by
    have code : (s.fragments.code block).isEmpty = false := by simpa [Fragments.code] using some
    show (!(_ && _ && (s.fragments.code block).isEmpty)) = true
    rw [code, Bool.and_false, Bool.not_false]
  nothing block none := by
    have code : s.fragments.code block = "" := none
    show (if block = .functions then s.fragments.code block
      else Program.indentFragment (s.fragments.code block)) = ""
    rw [code]
    split <;> rfl
  functions := rfl
  verbatim block other some := by
    have code : s.fragments.code block ≠ "" := some
    have texts : (s.fragments.items.filter fun f => f.block = block).map Fragment.code ≠ [] := by
      intro none
      exact code (by rw [Fragments.code, none]; rfl)
    have user : (Program.ofSpecification s).userText block =
        Program.indentFragment (s.fragments.code block) := if_neg other
    simp only [user, ← Text.indent_intercalate texts]
    exact (Program.indentFragment_iff code).trans Text.hasPlainLines_intercalate

/-- The code of the user for a block stands in the program. -/
theorem Pastes.exists_code_eq {s : Specification} {texts : Block → List String}
    (pasted : s.Pastes texts) {block : Block} (some : "\n".intercalate (texts block) ≠ "") :
    ∃ before behind, s.code = before ++ (Program.ofSpecification s).userText block ++ behind := by
  have mem : block ∈ Block.all.filter (Program.ofSpecification s).isShown :=
    List.mem_filter.mpr ⟨by cases block <;> decide, pasted.shown block some⟩
  obtain ⟨above, below, blocks⟩ := List.append_of_mem mem
  obtain ⟨rest, ends⟩ : ∃ rest, ended ((Program.ofSpecification s).userText block) =
      (Program.ofSpecification s).userText block ++ rest := by
    by_cases none : (Program.ofSpecification s).userText block = ""
    · exact ⟨"", by simp [ended, none]⟩
    · exact ⟨"\n", by simp [ended, none]⟩
  rw [pasted.layout, blocks, List.map_append, List.map_cons, String.join_append, String.join_cons,
    ends]
  generalize String.join (above.map _) = head
  generalize String.join (below.map _) = tail
  generalize ended ((Program.ofSpecification { s with fragments := .empty }).generatedText block) =
    generated
  exact ⟨"// generated with hierstan\n" ++ head ++ Program.blockTitle block ++ " \x7b\n" ++
    generated, rest ++ "\x7d\n" ++ tail, by simp only [String.append_assoc]⟩

/-- A program has the code of the user behind the generated text of each block: the fragments for
this block and no others, in the order in which they were combined, and the functions given by the old
argument behind them. Nothing of them is changed but for the blanks in front of the lines, and but
for an empty line at the end, exactly if line feeds alone end their lines. -/
theorem pastes_fragments {a : ModelArguments} {s : Specification}
    (accepted : (normalize a).outcome = .ok s) {sum : FragmentSum}
    (combined : sum.collect = .ok (a.fragments.getD .empty)) :
    s.Pastes fun block => ((sum.fragments ++ Fragments.ofFunctions a.functions).filter
      fun f => f.block = block).map Fragment.code := by
  have made := normalize_eq_ok_iff.mp accepted
  have items := Fragments.collect_iff.mp made.fragments
  rw [FragmentSum.items_of_collect combined] at items
  rw [← items]
  exact s.pastes_own

/-- Three fragments, two of them for the model. -/
def sampleFragments : FragmentSum :=
  .plus (.collection ⟨[⟨"real z = 1;\n// a note", .model, none, .null⟩], List.nodup_nil⟩)
    (.plus (.collection ⟨[⟨"int k;", .data, some "k", .int 2⟩], List.nodup_singleton _⟩)
      (.collection ⟨[⟨"target += z;\n", .model, none, .null⟩], List.nodup_nil⟩))

/-- A small model with code of the user. -/
def pasting (fragments : Option Fragments) : ModelArguments where
  formula := "y ~ 1"
  data := .table ⟨3, [("y", .int #[2, 3, 5].toVector)]⟩
  fragments := fragments
  functions := some "real half(real x) \x7b return x / 2; \x7d\n"

/-- The fragments of a model stand in its program. -/
theorem sample_pastes : ∃ fragments s, sampleFragments.collect = .ok fragments ∧
    (normalize (pasting (some fragments))).outcome = .ok s ∧
      (s.Pastes fun block => ((sampleFragments.fragments ++ Fragments.ofFunctions
        (some "real half(real x) \x7b return x / 2; \x7d\n")).filter
          fun f => f.block = block).map Fragment.code) ∧
        (Program.ofSpecification s).userText .model =
          "  real z = 1;\n  // a note\n  target += z;" := by
  let fragments : Fragments := ⟨sampleFragments.fragments, by decide⟩
  have combined : sampleFragments.collect = .ok fragments := rfl
  obtain ⟨s, accepted, computed⟩ := exists_of_any (normalize (pasting (some fragments))).outcome
    (fun s => (Program.ofSpecification s).userText .model =
      "  real z = 1;\n  // a note\n  target += z;") (by decide +kernel)
  exact ⟨fragments, s, combined, accepted, pastes_fragments accepted combined,
    of_decide_eq_true computed⟩

/-- A comment with a form feed in it. -/
def fedComment : Fragments :=
  ⟨[⟨"// one\x0ctwo", .model, none, .null⟩], List.nodup_nil⟩

/-- A form feed in the code of the user ends a line of the program, so that the end of a comment
becomes code. -/
theorem comment_broken : ∃ s, FragmentSum.collect (.collection fedComment) = .ok fedComment ∧
    (normalize (pasting (some fedComment))).outcome = .ok s ∧
      (∃ before behind, s.code = before ++ (Program.ofSpecification s).userText .model ++ behind) ∧
        (Program.ofSpecification s).userText .model = "  // one\n  two" := by
  obtain ⟨s, accepted, computed⟩ := exists_of_any (normalize (pasting (some fedComment))).outcome
    (fun s => s.fragments.code .model ≠ "" ∧
      (Program.ofSpecification s).userText .model = "  // one\n  two") (by decide +kernel)
  obtain ⟨some, user⟩ := of_decide_eq_true computed
  exact ⟨s, rfl, accepted, s.pastes_own.exists_code_eq some, user⟩

end Specification

end Multilevel
