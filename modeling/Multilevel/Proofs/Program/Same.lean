import Multilevel.Proofs.Program.SameBuildData

/-!
# Programs of specifications that compare equal

Specifications that compare equal have the same program, and the data of their programs agree or
meet the same error (`Specification.same_programs`). The comparison of the data finds them equal
exactly if none of their numbers is no number; one in the design, as in the product of an infinite
number with an indicator, makes data differ from themselves.
-/
namespace Multilevel

namespace Specification.Agrees

variable {a b : Specification}

/-- What of the terms the statements of a program depend on. -/
theorem terms_eq (agree : a.Agrees b) : a.terms.formula = b.terms.formula ∧
    a.terms.family = b.terms.family ∧
    a.terms.autocorrelation.isSome = b.terms.autocorrelation.isSome := by
  have same := agree.terms
  simp only [TermTree.same, Bool.and_eq_true, beq_iff_eq] at same
  exact ⟨same.1.1.1.1, same.1.1.1.2, TermTree.isSome_of_sameAutocorrelation same.1.1.2⟩

end Specification.Agrees

namespace Program

variable {a b : Specification}

/-- Knots are declared under the same names. -/
theorem knots_eq (agree : a.Agrees b) :
    (a.knots.flatMap fun (name, _) => knotData name) =
      b.knots.flatMap fun (name, _) => knotData name := by
  have names := (Bool.and_eq_true_iff.mp agree.knots).1
  rw [beq_iff_eq] at names
  have declared (knots : List (String × List Float)) :
      (knots.flatMap fun (name, _) => knotData name) = (knots.map Prod.fst).flatMap knotData := by
    rw [List.flatMap_map]
  rw [declared, declared, names]

/-- The statements of each block are the same. -/
theorem statements_eq (agree : a.Agrees b) (block : Block) :
    (ofSpecification a).statements block = (ofSpecification b).statements block := by
  obtain ⟨formula, family, residuals⟩ := agree.terms_eq
  obtain ⟨population, groups⟩ := agree.tree
  have structured := TermTree.isSome_of_sameAutocorrelation agree.autocorrelation
  have intercept : a.terms.intercept = b.terms.intercept := congrArg Formula.intercept formula
  have slopes : a.hasSlopes = b.hasSlopes := by rw [Specification.hasSlopes, population]; rfl
  have packed : a.isSparse = b.isSparse := by
    rw [Specification.isSparse, agree.sparse, slopes]; rfl
  have centered : a.isCentered = b.isCentered := by
    rw [Specification.isCentered, intercept, agree.sparse, slopes]; rfl
  cases block with
  | functions => rfl
  | data =>
    show dataBlock a = dataBlock b
    simp only [dataBlock, responseData, designData, lagData, knots_eq agree, agree.formula,
      agree.family, packed, groups, structured]
  | transformedData =>
    show transformedDataBlock a = transformedDataBlock b
    simp only [transformedDataBlock, centered]
  | parameters =>
    show parametersBlock a = parametersBlock b
    simp only [parametersBlock, slopes, intercept, agree.family, structured, groups]
  | transformedParameters =>
    show transformedParametersBlock a = transformedParametersBlock b
    simp only [transformedParametersBlock, groups]
  | model =>
    show modelBlock a = modelBlock b
    simp only [modelBlock, predictorStatements, residualDeclarations, sharedStatements,
      sharedSummands, designSummands, observationLoop, observationStatements, Priors.statements,
      Priors.slopeStatements, agree.family, agree.priors, family, population, structured, residuals,
      groups, intercept, packed, centered, slopes]
  | generatedQuantities =>
    show generatedQuantitiesBlock a = generatedQuantitiesBlock b
    simp only [generatedQuantitiesBlock, interceptQuantity, correlationQuantities, Priors.draws,
      agree.samplePrior, agree.priors, family, population, residuals, groups, intercept, centered]

/-- So is the code of the user. -/
theorem fragments_eq (agree : a.Agrees b) (block : Block) :
    a.fragments.code block = b.fragments.code block := by
  have each := Fragments.same_iff.mp agree.fragments
  unfold Fragments.code
  congr 1
  generalize a.fragments.items = items at each ⊢
  generalize b.fragments.items = items' at each ⊢
  induction each with
  | nil => rfl
  | cons first _ ih =>
    rw [List.filter_cons, List.filter_cons, first.block]
    split
    · rw [List.map_cons, List.map_cons, first.code, ih]
    · exact ih

/-- The texts of programs with the same statements and the same code of the user are the same. -/
theorem source_congr {p q : Program} (statements : ∀ block, p.statements block = q.statements block)
    (fragments : ∀ block, p.fragments.code block = q.fragments.code block) :
    p.source = q.source := by
  have block : p.blockSource = q.blockSource := by
    funext block
    rw [blockSource, blockSource, statements, fragments]
  rw [source, source, block]

end Program

namespace Specification

variable {A B : ModelArguments} {a b : Specification}

/-- Specifications that compare equal have the same program. -/
theorem Agrees.code_eq (agree : a.Agrees b) : a.code = b.code :=
  Program.source_congr (Program.statements_eq agree) (Program.fragments_eq agree)

/-- Specifications that compare equal have the same program, and the data of their programs meet the
same error or agree under the same names. Data that agree compare equal exactly if all of their
numbers are numbers. -/
theorem same_programs (left : (normalize A).outcome = .ok a) (right : (normalize B).outcome = .ok b)
    (same : a.same b = .ok true) : a.code = b.code ∧
      ((∃ e, BuildData.ofSpecification a = .error e ∧ BuildData.ofSpecification b = .error e) ∨
        ∃ x y, BuildData.ofSpecification a = .ok x ∧ BuildData.ofSpecification b = .ok y ∧
          BuildData.AreAlike x y ∧ x.same y = .ok !(y.any fun entry => entry.2.hasNaN)) := by
  have agree := same_iff.mp same
  refine ⟨agree.code_eq, ?_⟩
  have data := BuildData.ofSpecification_endAlike agree (normalize_spec left) (normalize_spec right)
  generalize BuildData.ofSpecification a = x at data ⊢
  generalize BuildData.ofSpecification b = y at data ⊢
  cases data with
  | error e => exact .inl ⟨e, rfl, rfl⟩
  | ok each => exact .inr ⟨_, _, rfl, rfl, each, BuildData.same_of_areAlike each⟩

/-- A small model with a number and a factor that interact. -/
def crossing (x : Float) : ModelArguments where
  formula := "y ~ x:f"
  data := .table ⟨3, [("y", .int #[2, 3, 5].toVector), ("x", .float #[x, 1.0, 2.0].toVector),
    ("f", Column.withLevels (.text #[some "u", some "v", some "u"].toVector) ["u", "v"])]⟩

/-- Two such models that differ in the sign of a zero compare equal. -/
theorem crossing_same_programs : ∃ a b, (normalize (crossing 0.0)).outcome = .ok a ∧
    (normalize (crossing (-0.0))).outcome = .ok b ∧ a.same b = .ok true ∧ a.code = b.code ∧
      ((∃ e, BuildData.ofSpecification a = .error e ∧ BuildData.ofSpecification b = .error e) ∨
        ∃ x y, BuildData.ofSpecification a = .ok x ∧ BuildData.ofSpecification b = .ok y ∧
          BuildData.AreAlike x y ∧ x.same y = .ok !(y.any fun entry => entry.2.hasNaN)) := by
  obtain ⟨a, left, computed⟩ := exists_of_any (normalize (crossing 0.0)).outcome
    (fun a => (normalize (crossing (-0.0))).outcome.toOption.any fun b => a.same b = .ok true)
    (by decide +kernel)
  obtain ⟨b, right, computed⟩ := exists_of_any _ _ computed
  have same := of_decide_eq_true computed
  exact ⟨a, b, left, right, same, same_programs left right same⟩

/-- With an infinite number the data differ from themselves, although the model compares equal to
itself. -/
theorem crossing_differs : ∃ s data, (normalize (crossing (1.0 / 0.0))).outcome = .ok s ∧
    s.same s = .ok true ∧ BuildData.ofSpecification s = .ok data ∧ data.same data = .ok false := by
  obtain ⟨s, accepted, computed⟩ := exists_of_any (normalize (crossing (1.0 / 0.0))).outcome
    (fun s => (BuildData.ofSpecification s).toOption.any fun data =>
      s.same s = .ok true ∧ data.same data = .ok false) (by decide +kernel)
  obtain ⟨data, made, computed⟩ := exists_of_any _ _ computed
  obtain ⟨same, differs⟩ := of_decide_eq_true computed
  exact ⟨s, data, accepted, same, made, differs⟩

end Specification

end Multilevel
