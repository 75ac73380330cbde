import Multilevel.Proofs.Program.DataBlock
import Multilevel.Proofs.Program.Labels

/-!
# Variables that a fit keeps

The program of a specification declares the variables of a draw in three blocks. A fit keeps those
that the specification does not drop. Their shapes are declared by sizes among the data; in terms of
the tree they are those of `Specification.IsKept`.
-/
namespace Multilevel

/-- The variable that a statement declares, with its type. -/
def Statement.declaration? : Statement → Option (Variable × VariableType)
  | declare type v _ _ => some (v, type)
  | _ => none

/-- The length that an expression of a declaration stands for, read from data. -/
def Expr.length? (data : BuildData) (size : Expr) : Option Nat :=
  (size.size? data).bind Int.toNat?

/-- The lengths of the dimensions of a type, read from data. -/
def VariableType.shape? (data : BuildData) : VariableType → Option (List Nat)
  | int _ | real _ => some []
  | vector _ size | ints size _ => do return [← size.length? data]
  | matrix rows columns => do return [← rows.length? data, ← columns.length? data]
  | correlationFactor size | correlations size => do
    let n ← size.length? data
    return [n, n]

namespace Specification

/-- The variables that the program declares for each draw, less those that are dropped. -/
def kept (s : Specification) : List (Variable × VariableType) :=
  let p := Program.ofSpecification s
  ((p.parameters ++ p.transformedParameters ++ p.generatedQuantities).filterMap
    Statement.declaration?).filter fun entry => !s.exclude.contains entry.1.name

/-- A variable that a fit may keep, with its shape. -/
inductive IsKept (s : Specification) : Variable → List Nat → Prop
  /-- The shared coefficients. -/
  | slopes (some : s.terms.population ≠ []) : IsKept s .slopes [s.terms.population.length]
  /-- A parameter of the response distribution. -/
  | auxiliary (parameter : Auxiliary) : IsKept s (.auxiliary parameter) []
  /-- The autoregressive coefficients. -/
  | feedback (own : Autocorrelation) (given : s.autocorrelation = some own) :
    IsKept s .feedback [own.order.toInt.toNat]
  /-- The standard deviations of a group. -/
  | deviations (group : Group) (mem : group ∈ s.terms.groups) :
    IsKept s (.deviations group.id) [group.size]
  /-- The standardized effects of a group. -/
  | standardized (group : Group) (mem : group ∈ s.terms.groups) :
    IsKept s (.standardized group.id) [group.size, group.levels.length]
  /-- The Cholesky factor of the correlations of a group. -/
  | correlationFactor (group : Group) (mem : group ∈ s.terms.groups) :
    IsKept s (.correlationFactor group.id) [group.size, group.size]
  /-- The effects of a coefficient of a group. -/
  | effect (group : Group) (mem : group ∈ s.terms.groups) (k : Nat) (inside : k < group.size) :
    IsKept s (.effect group.id (k + 1)) [group.levels.length]
  /-- The intercept of the design as given. -/
  | intercept (some : s.terms.intercept = true) : IsKept s .intercept []
  /-- The correlations of a group. -/
  | correlations (group : Group) (mem : group ∈ s.terms.groups) :
    IsKept s (.correlations group.id) [group.size, group.size]
  /-- A draw from the prior of the shared coefficients. -/
  | priorSlopes : IsKept s .priorSlopes []
  /-- A draw from the prior of the intercept. -/
  | priorIntercept : IsKept s .priorIntercept []
  /-- A draw from the prior of a distribution parameter. -/
  | priorAuxiliary (parameter : Auxiliary) : IsKept s (.priorAuxiliary parameter) []
  /-- A draw from the prior of the autoregressive coefficients. -/
  | priorFeedback : IsKept s .priorFeedback []
  /-- A draw from the prior of the standard deviations of a group. -/
  | priorDeviations (group : Group) (mem : group ∈ s.terms.groups) (drawn : s.samplePrior = .yes) :
    IsKept s (.priorDeviations group.id) []

/-- Whether data hold the sizes of a specification. -/
structure HasSizes (s : Specification) (data : BuildData) : Prop where
  /-- The number of shared coefficients. -/
  coefficients : data.whole? .coefficients = some (s.terms.population.length : Int)
  /-- The numbers of levels. -/
  levels : ∀ group ∈ s.terms.groups,
    data.whole? (.levelCount group.id) = some (group.levels.length : Int)
  /-- The numbers of varying coefficients. -/
  effects : ∀ group ∈ s.terms.groups,
    data.whole? (.effectCount group.id) = some (group.size : Int)
  /-- The order of the autoregressive process. -/
  order : ∀ own, s.autocorrelation = some own → data.whole? .order = some own.order.toInt

variable {a : ModelArguments} {s : Specification} {data : BuildData}

/-- The data of a normalized specification hold its sizes. -/
theorem IsNormal.hasSizes (normal : IsNormal a s) (done : BuildData.ofSpecification s = .ok data) :
    HasSizes s data := by
  obtain ⟨columns, design⟩ := normal.design
  obtain ⟨values, _, made, provided, _⟩ := BuildData.generated_spec normal design
  rw [BuildData.ofSpecification, made] at done
  have kept {v : Variable} {n : Int} (found : (BuildData.ofValues values).whole? v = some n) :
      data.whole? v = some n := by
    unfold BuildData.whole? at found ⊢
    split at found
    · rename_i datum here
      rw [BuildData.lookup_addLoose (mapError_eq_ok.mp done) here]
      exact found
    · cases found
  refine ⟨?_, fun group mem => kept (BuildData.whole?_levelCount normal provided mem),
    fun group mem => kept ?_, fun own given => kept ?_⟩
  · rw [kept (BuildData.whole?_coefficients provided), design.2, List.length_map]
  · have declared : Statement.declare (.int (Program.atLeast "1")) (.effectCount group.id) none
        "number of coefficients per level" ∈ Program.groupData group := by
      simp [Program.groupData]
    refine BuildData.whole?_eq provided
      (BuildData.declared_of_mem (BuildData.groupData_subset mem declared)) fun _ provides => ?_
    obtain ⟨other, there, number, rfl⟩ := provides
    rw [normal.group_eq there mem number]
  · have declared : Variable.order ∈ (Program.dataBlock s).flatMap Statement.declared := by
      simp [Program.dataBlock, Program.lagData, given, Statement.declared]
    obtain ⟨_, found, other, same, rfl⟩ := provided.exists_datum declared
    obtain rfl := Option.some.inj (given.symm.trans same)
    rw [BuildData.whole?, found]

/-- The length under a variable that holds a number. -/
theorem length?_eq {v : Variable} {n : Nat} (holds : data.whole? v = some (n : Int)) :
    (Expr.var v).length? data = some n := by
  rw [Expr.length?, Expr.size?, holds]
  rfl

/-- A variable that a list of statements declares. -/
theorem mem_declarations {statements : List Statement} {v : Variable} {type : VariableType} :
    (v, type) ∈ statements.filterMap Statement.declaration? ↔
      ∃ value note, Statement.declare type v value note ∈ statements := by
  rw [List.mem_filterMap]
  constructor
  · rintro ⟨statement, mem, declares⟩
    unfold Statement.declaration? at declares
    split at declares
    · obtain ⟨rfl, rfl⟩ := Prod.mk.inj (Option.some.inj declares)
      exact ⟨_, _, mem⟩
    · cases declares
  · rintro ⟨value, note, mem⟩
    exact ⟨_, mem, rfl⟩

/-- Whether the data give a variable of a type a shape that it may be kept in. -/
def HasKeptShape (s : Specification) (data : BuildData) (v : Variable) (type : VariableType) :
    Prop :=
  ∃ shape, type.shape? data = some shape ∧ IsKept s v shape

/-- A parameter is dropped or may be kept. -/
theorem HasSizes.of_parameter (sizes : HasSizes s data)
    (exclude : s.exclude = s.terms.excluded a.keepEffects a.keepInternal) {v : Variable}
    {type : VariableType} {value : Option Expr} {note : String}
    (mem : .declare type v value note ∈ Program.parametersBlock s)
    (stays : v.name ∉ s.exclude) : HasKeptShape s data v type := by
  simp only [Program.parametersBlock, List.mem_append, List.mem_flatMap] at mem
  rcases mem with (((slopes | intercept) | auxiliary) | feedback) | ⟨group, inside, own⟩
  · split at slopes
    · rename_i some
      cases List.mem_singleton.mp slopes
      exact ⟨_, by rw [VariableType.shape?, length?_eq sizes.coefficients]; rfl,
        .slopes (by simpa [hasSlopes] using some)⟩
    · cases slopes
  · split at intercept
    · rename_i some
      cases List.mem_singleton.mp intercept
      simp [exclude, TermTree.excluded, some, Variable.name] at stays
    · cases intercept
  · obtain ⟨parameter, _, same⟩ := List.mem_map.mp auxiliary
    cases same
    exact ⟨_, rfl, .auxiliary parameter⟩
  · split at feedback
    · rename_i structured
      obtain ⟨own, given⟩ := Option.isSome_iff_exists.mp structured
      have order : data.whole? .order = some (own.order.toInt.toNat : Int) := by
        have positive := own.positive
        rw [sizes.order own given, Int.toNat_of_nonneg (by omega)]
      cases List.mem_singleton.mp feedback
      exact ⟨_, by rw [VariableType.shape?, length?_eq order]; rfl, .feedback own given⟩
    · cases feedback
  · have size := length?_eq (sizes.effects group inside)
    have levels := length?_eq (sizes.levels group inside)
    simp only [Program.groupParameters, List.mem_append, List.mem_cons, List.not_mem_nil,
      or_false] at own
    rcases own with (same | same) | correlated
    · cases same
      exact ⟨_, by rw [VariableType.shape?, size]; rfl, .deviations group inside⟩
    · cases same
      exact ⟨_, by rw [VariableType.shape?, size, levels]; rfl, .standardized group inside⟩
    · split at correlated
      · cases List.mem_singleton.mp correlated
        exact ⟨_, by rw [VariableType.shape?, size]; rfl, .correlationFactor group inside⟩
      · cases correlated

/-- A variable that is computed from the parameters is dropped or may be kept. -/
theorem HasSizes.of_transformed (sizes : HasSizes s data)
    (exclude : s.exclude = s.terms.excluded a.keepEffects a.keepInternal) {v : Variable}
    {type : VariableType} {value : Option Expr} {note : String}
    (mem : .declare type v value note ∈ Program.transformedParametersBlock s)
    (stays : v.name ∉ s.exclude) : HasKeptShape s data v type := by
  simp only [Program.transformedParametersBlock, List.mem_append, List.mem_flatMap] at mem
  rcases mem with ⟨group, inside, own⟩ | ⟨group, _, own⟩
  · rcases List.mem_cons.mp own with same | column
    · cases same
      refine absurd ?_ stays
      rw [exclude, TermTree.excluded]
      exact List.mem_append_right _ (List.mem_flatMap.mpr ⟨group, inside, List.mem_cons_self⟩)
    · obtain ⟨k, below, same⟩ := List.mem_map.mp column
      cases same
      exact ⟨_, by rw [VariableType.shape?, length?_eq (sizes.levels group inside)]; rfl,
        .effect group inside k (List.mem_range.mp below)⟩
  · simp [Program.effectStatements, Program.columnStatements] at own

/-- A draw from a prior is of the variable that it is for. -/
theorem target_of_mem_drawOf {target : Variable} {prior : Prior}
    {bounds : Option (String × Option String)} {draw : PriorDraw}
    (mem : draw ∈ Priors.drawOf target prior bounds) : draw.target = target := by
  unfold Priors.drawOf at mem
  split at mem
  · cases mem
  · rw [List.mem_singleton.mp mem]

/-- A draw from a prior may be kept. -/
theorem isKept_of_mem_draws (chosen : s.samplePrior = .yes) {draw : PriorDraw}
    (mem : draw ∈ Priors.draws s.terms s.priors) : IsKept s draw.target [] := by
  simp only [Priors.draws, List.mem_append, List.mem_flatMap] at mem
  rcases mem with (((slopes | intercept) | ⟨parameter, _, here⟩) | feedback) |
    ⟨group, member, here⟩
  · split at slopes
    · cases slopes
    · exact target_of_mem_drawOf slopes ▸ .priorSlopes
  · split at intercept
    · exact target_of_mem_drawOf intercept ▸ .priorIntercept
    · cases intercept
  · exact target_of_mem_drawOf here ▸ .priorAuxiliary parameter
  · split at feedback
    · exact target_of_mem_drawOf feedback ▸ .priorFeedback
    · cases feedback
  · exact target_of_mem_drawOf here ▸ .priorDeviations group member chosen

/-- A generated quantity may be kept. -/
theorem HasSizes.of_generated (sizes : HasSizes s data) {v : Variable} {type : VariableType}
    {value : Option Expr} {note : String}
    (mem : .declare type v value note ∈ Program.generatedQuantitiesBlock s) :
    HasKeptShape s data v type := by
  simp only [Program.generatedQuantitiesBlock, List.mem_append] at mem
  rcases mem with ((intercept | correlated) | drawn) | redrawn
  · unfold Program.interceptQuantity at intercept
    split at intercept
    · rename_i some
      split at intercept
      all_goals
        cases List.mem_singleton.mp intercept
        exact ⟨_, rfl, .intercept some⟩
    · cases intercept
  · obtain ⟨group, inside, own⟩ := List.mem_flatMap.mp correlated
    split at own
    · cases List.mem_singleton.mp own
      exact ⟨_, by rw [VariableType.shape?, length?_eq (sizes.effects group inside)]; rfl,
        .correlations group inside⟩
    · cases own
  · obtain ⟨draw, inside, same⟩ := List.mem_map.mp drawn
    cases same
    split at inside
    · rename_i chosen
      exact ⟨_, rfl, isKept_of_mem_draws chosen inside⟩
    · cases inside
  · obtain ⟨draw, _, redraw⟩ := List.mem_filterMap.mp redrawn
    simp [PriorDraw.redraw?] at redraw

/-- A kept variable has a shape, one of those listed. -/
theorem IsNormal.hasKeptShape (normal : IsNormal a s)
    (done : BuildData.ofSpecification s = .ok data) {v : Variable} {type : VariableType}
    (mem : (v, type) ∈ s.kept) : HasKeptShape s data v type := by
  have sizes := normal.hasSizes done
  obtain ⟨declared, stays⟩ := List.mem_filter.mp mem
  have stays : v.name ∉ s.exclude := by simpa using stays
  obtain ⟨value, note, mem⟩ := mem_declarations.mp declared
  simp only [Program.ofSpecification, List.mem_append] at mem
  rcases mem with (parameter | transformed) | generated
  · exact sizes.of_parameter normal.exclude parameter stays
  · exact sizes.of_transformed normal.exclude transformed stays
  · exact sizes.of_generated generated

end Specification

end Multilevel
