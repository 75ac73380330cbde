import Multilevel.Formula.Reader
import Multilevel.Proofs.Entries
import Multilevel.Proofs.Outcome

/-!
# What reading a formula guarantees

Every term of a formula that was read has at least one variable, all of its variables have names,
and a group-level term has at least one effect.
-/
namespace Multilevel

/-- Whether a text is the name of a variable. -/
def IsVariableName (name : String) : Prop := Formula.isName name.toList

/-- A name of a variable is not empty. -/
theorem IsVariableName.ne_empty {name : String} (named : IsVariableName name) : name ≠ "" := by
  rintro rfl
  simp [IsVariableName, Formula.isName] at named

/-- A term of at least one variable, all of which have names. -/
structure Term.IsNamed (term : Term) : Prop where
  /-- There is a variable. -/
  nonempty : term.names ≠ []
  /-- The variables have names. -/
  named : ∀ name ∈ term.names, IsVariableName name

/-- A group-level term of at least one effect, with named variables. -/
structure GroupTerm.IsNamed (term : GroupTerm) : Prop where
  /-- There is an effect. -/
  effects : term.intercept = true ∨ term.terms ≠ []
  /-- The slopes are those of named terms. -/
  terms : ∀ slope ∈ term.terms, slope.IsNamed
  /-- The grouping factor has a name. -/
  group : IsVariableName term.group

/-- A formula all of whose terms are named. -/
structure Formula.IsNamed (formula : Formula) : Prop where
  /-- The shared terms are named. -/
  terms : ∀ term ∈ formula.terms, term.IsNamed
  /-- The group-level terms are named. -/
  groupTerms : ∀ term ∈ formula.groupTerms, term.IsNamed

namespace Formula

/-- A name that was read is the name of a variable. -/
theorem readName_eq_ok {chars context : List Char} {name : String}
    (done : readName chars context = .ok name) : IsVariableName name := by
  unfold readName at done
  dsimp only at done
  split at done
  · rename_i valid
    obtain rfl := Except.ok.inj done
    simpa [IsVariableName] using valid
  · cases done

/-- The names in the pieces of a text make a named term. -/
theorem mapM_readName_eq_ok {mark : Char} {chars context : List Char} {names : List String}
    (done : (Text.splitOn mark chars).mapM (fun piece => readName piece context) = .ok names) :
    Term.IsNamed ⟨names⟩ where
  nonempty := by
    have same := (mapM_eq_ok.mp done).length_eq
    rintro (rfl : names = [])
    exact Text.splitOn_ne_nil mark chars (List.length_eq_zero_iff.mp same)
  named name mem := by
    obtain ⟨piece, _, read⟩ := exists_of_mem_mapM done mem
    exact readName_eq_ok read

/-- A choice has the number of elements asked for, all of them among those given. -/
theorem of_mem_choices {α : Type} {count : Nat} {as chosen : List α}
    (mem : chosen ∈ choices count as) : chosen.length = count ∧ ∀ a ∈ chosen, a ∈ as := by
  induction count, as using choices.induct generalizing chosen with
  | case1 => simp_all [choices]
  | case2 => simp [choices] at mem
  | case3 count a rest taken left =>
    rw [choices, List.mem_append, List.mem_map] at mem
    rcases mem with ⟨others, mem, rfl⟩ | mem
    · obtain ⟨size, inside⟩ := taken mem
      refine ⟨by simp [size], fun b here => ?_⟩
      rcases List.mem_cons.mp here with rfl | later
      · exact List.mem_cons_self
      · exact List.mem_cons_of_mem _ (inside b later)
    · obtain ⟨size, inside⟩ := left mem
      exact ⟨size, fun b here => List.mem_cons_of_mem _ (inside b here)⟩

/-- The terms of a crossing of named variables are named. -/
theorem crossing_isNamed {names : List String} (named : ∀ name ∈ names, IsVariableName name) :
    ∀ term ∈ crossing names, term.IsNamed := by
  intro term mem
  simp only [crossing, List.mem_flatMap, List.mem_range, List.mem_map] at mem
  obtain ⟨size, _, chosen, mem, rfl⟩ := mem
  obtain ⟨length, inside⟩ := of_mem_choices mem
  refine ⟨fun empty => ?_, fun name here => named name (inside name here)⟩
  rw [show chosen = [] from empty, List.length_nil] at length
  omega

/-- The terms of a summand are named. -/
theorem readTerms_eq_ok {chars : List Char} {terms : List Term}
    (done : readTerms chars = .ok terms) : ∀ term ∈ terms, term.IsNamed := by
  unfold readTerms at done
  split at done
  · simp only [bind_eq_ok, pure_eq_ok] at done
    obtain ⟨names, read, rfl⟩ := done
    exact crossing_isNamed (mapM_readName_eq_ok read).named
  split at done
  · simp only [bind_eq_ok, pure_eq_ok] at done
    obtain ⟨names, read, rfl⟩ := done
    simpa using mapM_readName_eq_ok read
  · simp only [bind_eq_ok, pure_eq_ok] at done
    obtain ⟨name, read, rfl⟩ := done
    intro term mem
    obtain rfl := List.mem_singleton.mp mem
    refine ⟨by simp, fun other here => ?_⟩
    obtain rfl := List.mem_singleton.mp here
    exact readName_eq_ok read

/-- A right side all of whose terms are named. -/
structure RightSide.IsNamed (side : RightSide) : Prop where
  /-- The terms are named. -/
  terms : ∀ term ∈ side.terms, term.IsNamed
  /-- The group-level terms are named. -/
  groupTerms : ∀ term ∈ side.groupTerms, term.IsNamed

/-- Adding a summand keeps the terms of a right side named. -/
theorem RightSide.add_eq_ok {readGroup : List Char → Except FormulaError GroupTerm}
    (groups : ∀ chars term, readGroup chars = .ok term → term.IsNamed) {whole : List Char}
    {side next : RightSide} {summand : Sign × List Char} (named : side.IsNamed)
    (done : side.add readGroup whole summand = .ok next) : next.IsNamed := by
  obtain ⟨sign, term⟩ := summand
  rw [RightSide.add] at done
  split at done
  · rw [ite_error_eq_ok] at done
    obtain rfl := Except.ok.inj done.2
    exact ⟨named.terms, named.groupTerms⟩
  rw [ite_error_eq_ok] at done
  replace done := done.2
  split at done
  · simp only [bind_eq_ok, pure_eq_ok] at done
    obtain ⟨group, read, rfl⟩ := done
    refine ⟨named.terms, fun other mem => ?_⟩
    rcases List.mem_append.mp mem with earlier | last
    · exact named.groupTerms other earlier
    · exact List.mem_singleton.mp last ▸ groups term group read
  · simp only [ite_error_eq_ok, bind_eq_ok, pure_eq_ok] at done
    obtain ⟨_, terms, read, rfl⟩ := done
    refine ⟨fun other mem => ?_, named.groupTerms⟩
    rcases List.mem_append.mp mem with earlier | last
    · exact named.terms other earlier
    · exact readTerms_eq_ok read other last

/-- A right side that was read has named terms. -/
theorem readSide_eq_ok {readGroup : List Char → Except FormulaError GroupTerm}
    (groups : ∀ chars term, readGroup chars = .ok term → term.IsNamed) {chars : List Char}
    {side : RightSide} (done : readSide readGroup chars = .ok side) : side.IsNamed := by
  simp only [readSide, bind_eq_ok] at done
  obtain ⟨summands, _, done⟩ := done
  have start : RightSide.IsNamed ⟨true, [], []⟩ := ⟨by simp, by simp⟩
  exact foldlM_spec (fun _ side => side.IsNamed)
    (fun _ _ _ _ named step => RightSide.add_eq_ok groups named step) [] summands start done

/-- A group-level term that was read is named. -/
theorem readGroup_eq_ok {chars : List Char} {term : GroupTerm}
    (done : readGroup chars = .ok term) : term.IsNamed := by
  unfold readGroup at done
  dsimp only at done
  split at done
  · simp only [↓throw_bind, bind_eq_ok, ite_throw_eq_ok, pure_eq_ok] at done
    obtain ⟨side, read, effects, name, group, rfl⟩ := done
    have named : side.IsNamed := readSide_eq_ok (fun _ _ refused => by cases refused) read
    refine ⟨?_, fun slope mem => named.terms slope (List.mem_eraseDups.mp mem), readName_eq_ok group⟩
    by_cases kept : side.intercept = true
    · exact .inl kept
    · right
      obtain ⟨slope, mem⟩ : ∃ slope, slope ∈ side.terms := by
        apply List.exists_mem_of_ne_nil
        simpa [kept] using effects
      exact List.ne_nil_of_mem (List.mem_eraseDups.mpr mem)
  · simp [throw_ne_ok] at done

/-- A formula that was read has named terms. -/
theorem read_eq_ok {text : String} {formula : Formula} (done : read text = .ok formula) :
    formula.IsNamed := by
  have right {chars : List Char} {side : RightSide} (read : readSide readGroup chars = .ok side) :=
    readSide_eq_ok (fun _ _ => readGroup_eq_ok) read
  -- Whatever the left side says, the terms are those of the right side.
  have terms {chars : List Char} {response : String} {trials : Option String}
      (read : (readSide readGroup chars >>= fun rest => pure ⟨response, trials, rest.intercept,
        rest.terms.eraseDups, rest.groupTerms⟩) = .ok formula) : formula.IsNamed := by
    rw [bind_eq_ok] at read
    obtain ⟨side, read, made⟩ := read
    obtain rfl := Except.ok.inj made
    exact ⟨fun term mem => (right read).terms term (List.mem_eraseDups.mp mem),
      (right read).groupTerms⟩
  unfold Formula.read at done
  split at done
  · rename_i left right _
    cases read : readLeft? left with
    | none => simp [read, throw_ne_ok] at done
    | some side =>
      rcases addition : side.addition with _ | ⟨word, argument⟩
      · simp only [read, addition, ↓throw_bind, ite_throw_eq_ok] at done
        exact terms done.2
      · simp only [read, addition, ↓throw_bind, ite_throw_eq_ok] at done
        exact terms done.2.2
  · exact absurd done (by simp [throw_ne_ok])

end Formula

end Multilevel
