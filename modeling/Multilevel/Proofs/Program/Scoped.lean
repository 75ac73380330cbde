import Mathlib
import Multilevel.Proofs.Model.Specification
import Multilevel.Proofs.Program.Scope

/-!
# What programs use is declared

The data, the transformed data, the parameters and the transformed parameters of a model bring
variables into scope, each under its own condition on the model. A structure for each of them says
which; the pieces of a program then need no more than the structures of the blocks that they see.
Main statement: in the program of a model every statement uses nothing but what is declared before
it in its own block or in a block that its block sees (`uses_declared`).
-/
namespace Multilevel

/-- The blocks whose variables a block sees besides its own. The variables of the model block are
seen by no other block. -/
def Block.sees : Block → List Block
  | functions | data => []
  | transformedData => [data]
  | parameters => [data, transformedData]
  | transformedParameters => [data, transformedData, parameters]
  | model | generatedQuantities => [data, transformedData, parameters, transformedParameters]

namespace Program

open Specification (IsNormal)
open Statement (AreScoped areScoped_flatMap areScoped_filterMap areScoped_of_forall areScoped_iff)

/-- The variables of the blocks that a block sees. -/
def visible (p : Program) (block : Block) : List Variable :=
  block.sees.flatMap fun seen => (p.statements seen).flatMap Statement.declared

/-- Whether the data of a model are in scope. -/
structure HasData (s : Specification) (scope : Scope) : Prop where
  observations : .observations ∈ scope.declared
  response : .response ∈ scope.declared
  trials : s.formula.trials.isSome = true → .trials ∈ scope.declared
  coefficients : .coefficients ∈ scope.declared
  design : s.isSparse = false → .design ∈ scope.declared
  sparse : s.isSparse = true →
    ∀ v ∈ [Variable.nonzeros, .nonzeroColumns, .rowStarts], v ∈ scope.declared
  sizes : ∀ group ∈ s.terms.groups,
    .levelCount group.id ∈ scope.declared ∧ .effectCount group.id ∈ scope.declared
  levels : ∀ group ∈ s.terms.groups, .levelIndex group.id ∈ scope.declared
  columns : ∀ group ∈ s.terms.groups, ∀ k < group.size,
    .effectDesign group.id (k + 1) ∈ scope.declared
  covariances : ∀ group ∈ s.terms.groups, group.hasCovariance = true →
    .covarianceFactor group.id ∈ scope.declared
  lags : s.autocorrelation.isSome = true →
    .order ∈ scope.declared ∧ .lags ∈ scope.declared
  priorOnly : .priorOnly ∈ scope.declared

/-- Whether the centered design of a model is in scope, if it has one. -/
def HasCentering (s : Specification) (scope : Scope) : Prop :=
  s.isCentered = true → .centered ∈ scope.declared ∧ .means ∈ scope.declared

/-- Whether the parameters of a model are in scope. -/
structure HasParameters (s : Specification) (scope : Scope) : Prop where
  slopes : s.hasSlopes = true → .slopes ∈ scope.declared
  intercept : s.terms.intercept = true → .temporaryIntercept ∈ scope.declared
  auxiliaries : ∀ parameter ∈ s.family.distribution.auxiliaries,
    .auxiliary parameter ∈ scope.declared
  feedback : s.autocorrelation.isSome = true → .feedback ∈ scope.declared
  groups : ∀ group ∈ s.terms.groups,
    .deviations group.id ∈ scope.declared ∧ .standardized group.id ∈ scope.declared
  correlations : ∀ group ∈ s.terms.groups, group.hasCorrelations = true →
    .correlationFactor group.id ∈ scope.declared

/-- Whether the scaled effects of the groups are in scope. -/
structure HasEffects (s : Specification) (scope : Scope) : Prop where
  effects : ∀ group ∈ s.terms.groups, .effects group.id ∈ scope.declared
  columns : ∀ group ∈ s.terms.groups, ∀ k < group.size,
    .effect group.id (k + 1) ∈ scope.declared

section Mono

variable {s : Specification} {scope outer : Scope} (within : scope.Within outer)
include within

/-- Data in scope stay in scope. -/
theorem HasData.mono (data : HasData s scope) : HasData s outer where
  observations := within.declared _ data.observations
  response := within.declared _ data.response
  trials counted := within.declared _ (data.trials counted)
  coefficients := within.declared _ data.coefficients
  design dense := within.declared _ (data.design dense)
  sparse sparse v mem := within.declared _ (data.sparse sparse v mem)
  sizes group mem :=
    ⟨within.declared _ (data.sizes group mem).1, within.declared _ (data.sizes group mem).2⟩
  levels group mem := within.declared _ (data.levels group mem)
  columns group mem k small := within.declared _ (data.columns group mem k small)
  covariances group mem known := within.declared _ (data.covariances group mem known)
  lags structured :=
    ⟨within.declared _ (data.lags structured).1, within.declared _ (data.lags structured).2⟩
  priorOnly := within.declared _ data.priorOnly

/-- A centered design in scope stays in scope. -/
theorem HasCentering.mono (centering : HasCentering s scope) : HasCentering s outer :=
  fun centered => ⟨within.declared _ (centering centered).1, within.declared _ (centering centered).2⟩

/-- Parameters in scope stay in scope. -/
theorem HasParameters.mono (parameters : HasParameters s scope) : HasParameters s outer where
  slopes given := within.declared _ (parameters.slopes given)
  intercept given := within.declared _ (parameters.intercept given)
  auxiliaries parameter mem := within.declared _ (parameters.auxiliaries parameter mem)
  feedback structured := within.declared _ (parameters.feedback structured)
  groups group mem :=
    ⟨within.declared _ (parameters.groups group mem).1,
      within.declared _ (parameters.groups group mem).2⟩
  correlations group mem correlated := within.declared _ (parameters.correlations group mem correlated)

/-- Effects in scope stay in scope. -/
theorem HasEffects.mono (effects : HasEffects s scope) : HasEffects s outer where
  effects group mem := within.declared _ (effects.effects group mem)
  columns group mem k small := within.declared _ (effects.columns group mem k small)

end Mono

section Blocks

variable (s : Specification) {scope : Scope}

/-- The data block brings the data into scope. -/
theorem hasData (block : (dataBlock s).flatMap Statement.declared ⊆ scope.declared) :
    HasData s scope := by
  have response : (responseData s).flatMap Statement.declared ⊆ scope.declared :=
    fun v mem => block (by simp [dataBlock, mem])
  have design : (designData s).flatMap Statement.declared ⊆ scope.declared :=
    fun v mem => block (by simp [dataBlock, mem])
  have lags : (lagData s).flatMap Statement.declared ⊆ scope.declared :=
    fun v mem => block (by simp [dataBlock, mem])
  have groups : ∀ group ∈ s.terms.groups,
      (groupData group).flatMap Statement.declared ⊆ scope.declared := by
    intro group mem v inside
    refine block ?_
    have listed : v ∈ s.terms.groups.flatMap fun group =>
        (groupData group).flatMap Statement.declared := List.mem_flatMap.mpr ⟨group, mem, inside⟩
    simp only [dataBlock, List.flatMap_append, List.flatMap_assoc, List.mem_append]
    tauto
  constructor
  case observations => exact block (by simp [dataBlock, Statement.declared])
  case priorOnly => exact block (by simp [dataBlock, Statement.declared])
  case response =>
    apply response
    unfold responseData
    split <;> simp [Statement.declared]
  case trials =>
    intro counted
    apply response
    simp [responseData, counted, Statement.declared]
  case coefficients => exact design (by simp [designData, Statement.declared])
  case design =>
    intro dense
    apply design
    simp [designData, dense, Statement.declared]
  case sparse =>
    intro sparse v mem
    apply design
    simp only [List.mem_cons, List.not_mem_nil, or_false] at mem
    rcases mem with rfl | rfl | rfl <;> simp [designData, sparse, Statement.declared]
  case sizes =>
    intro group mem
    constructor <;> exact groups group mem (by simp [groupData, Statement.declared])
  case levels =>
    intro group mem
    exact groups group mem (by simp [groupData, Statement.declared])
  case columns =>
    intro group mem k small
    refine groups group mem ?_
    simpa [groupData, Statement.declared] using small
  case covariances =>
    intro group mem known
    refine groups group mem ?_
    simp [groupData, known, Statement.declared]
  case lags =>
    intro structured
    constructor <;> exact lags (by simp [lagData, structured, Statement.declared])

/-- The transformed data bring the centered design into scope. -/
theorem hasCentering
    (block : (transformedDataBlock s).flatMap Statement.declared ⊆ scope.declared) :
    HasCentering s scope := by
  intro centered
  constructor <;> exact block (by simp [transformedDataBlock, centered, Statement.declared])

/-- The parameters block brings the parameters into scope. -/
theorem hasParameters
    (block : (parametersBlock s).flatMap Statement.declared ⊆ scope.declared) :
    HasParameters s scope := by
  have groups : ∀ group ∈ s.terms.groups,
      (groupParameters group).flatMap Statement.declared ⊆ scope.declared := by
    intro group mem v inside
    refine block ?_
    have listed : v ∈ s.terms.groups.flatMap fun group =>
        (groupParameters group).flatMap Statement.declared :=
      List.mem_flatMap.mpr ⟨group, mem, inside⟩
    simp only [parametersBlock, List.flatMap_append, List.flatMap_assoc, List.mem_append]
    exact .inr listed
  constructor
  case slopes =>
    intro given
    exact block (by simp [parametersBlock, given, Statement.declared])
  case intercept =>
    intro given
    exact block (by simp [parametersBlock, given, Statement.declared])
  case auxiliaries =>
    intro parameter mem
    refine block ?_
    simp only [parametersBlock, List.flatMap_append, List.mem_append, List.flatMap_map]
    exact .inl (.inl (.inr (List.mem_flatMap.mpr ⟨parameter, mem, List.mem_singleton_self _⟩)))
  case feedback =>
    intro structured
    exact block (by simp [parametersBlock, structured, Statement.declared])
  case groups =>
    intro group mem
    constructor <;> exact groups group mem (by simp [groupParameters, Statement.declared])
  case correlations =>
    intro group mem correlated
    exact groups group mem (by simp [groupParameters, correlated, Statement.declared])

/-- The declarations of the transformed parameters bring the scaled effects into scope. -/
theorem hasEffects
    (block : (s.terms.groups.flatMap effectDeclarations).flatMap Statement.declared ⊆
      scope.declared) : HasEffects s scope := by
  have groups : ∀ group ∈ s.terms.groups,
      (effectDeclarations group).flatMap Statement.declared ⊆ scope.declared := by
    intro group mem v inside
    rw [List.flatMap_assoc] at block
    exact block (List.mem_flatMap.mpr ⟨group, mem, inside⟩)
  constructor
  · intro group mem
    exact groups group mem (by simp [effectDeclarations, Statement.declared])
  · intro group mem k small
    refine groups group mem ?_
    simpa [effectDeclarations, columnDeclarations, Statement.declared] using small

end Blocks

section Data

variable (s : Specification) {scope : Scope} (counted : .observations ∈ scope.declared)
include counted

/-- The declaration of the response uses the number of observations. -/
theorem areScoped_responseData : AreScoped scope (responseData s) := by
  unfold responseData
  split <;> split <;> simp [counted]

/-- The declarations of the design use the number of observations and sizes of their own. -/
theorem areScoped_designData : AreScoped scope (designData s) := by
  unfold designData
  split <;> simp [counted, atLeast, Statement.declared]

/-- The declarations of a group's data use the number of observations and sizes of their own. -/
theorem areScoped_groupData (group : Group) : AreScoped scope (groupData group) := by
  have columns : AreScoped scope ((List.range group.size).map fun k =>
      .declare (.vector {} Variable.observations) (.effectDesign group.id (k + 1)) none "") :=
    areScoped_of_forall (by simp [counted])
  have inner := columns.mono (scope.within_declare [.levelCount group.id, .effectCount group.id,
    .levelIndex group.id])
  simp only [groupData, Statement.areScoped_append]
  refine ⟨⟨?_, ?_⟩, ?_⟩
  · simp [counted, atLeast, Statement.declared]
  · exact inner
  · split <;> simp [Statement.declared]

/-- The declarations of the residuals use the number of observations. -/
theorem areScoped_lagData : AreScoped scope (lagData s) := by
  unfold lagData
  split <;> simp [counted, atLeast, Statement.declared]

end Data

/-- The declarations of knots use sizes of their own. -/
theorem areScoped_knotData (scope : Scope) (name : String) : AreScoped scope (knotData name) := by
  simp [knotData, atLeast, Statement.declared]

/-- The data block is in scope. -/
theorem areScoped_dataBlock (s : Specification) (scope : Scope) :
    AreScoped scope (dataBlock s) := by
  have counted : Variable.observations ∈ (scope.declare [.observations]).declared := by simp
  have groups : AreScoped (scope.declare [.observations]) (s.terms.groups.flatMap groupData) :=
    areScoped_flatMap fun group _ => areScoped_groupData counted group
  have knots : AreScoped (scope.declare [.observations])
      (s.knots.flatMap fun entry => knotData entry.1) :=
    areScoped_flatMap fun entry _ => areScoped_knotData _ entry.1
  have ignored : AreScoped (scope.declare [.observations])
      [.declare (.int {}) .priorOnly none "should the likelihood be ignored?"] := by simp
  simp only [dataBlock, List.cons_append, Statement.areScoped_cons]
  constructor
  · simp [atLeast]
  · exact (((((areScoped_responseData s counted).append (areScoped_designData s counted)).append
      groups).append (areScoped_lagData s counted)).append knots).append ignored

section Blocks

variable {s : Specification} {scope : Scope} (data : HasData s scope)
include data

/-- The transformed data use the design. -/
theorem areScoped_transformedDataBlock : AreScoped scope (transformedDataBlock s) := by
  unfold transformedDataBlock
  split
  · rename_i centered
    obtain ⟨_, _, dense⟩ := Specification.of_isCentered centered
    simp [data.observations, data.coefficients, data.design dense, Statement.declared]
  · exact Statement.areScoped_nil

/-- The declarations of a group's parameters use the sizes of the group. -/
theorem areScoped_groupParameters {group : Group} (mem : group ∈ s.terms.groups) :
    AreScoped scope (groupParameters group) := by
  obtain ⟨levels, effects⟩ := data.sizes group mem
  unfold groupParameters
  split <;> simp [levels, effects, atLeast, Statement.declared]

/-- The parameters block uses the data. -/
theorem areScoped_parametersBlock : AreScoped scope (parametersBlock s) := by
  have slopes : AreScoped scope (if s.hasSlopes then
      [.declare (.vector {} Variable.coefficients) .slopes none "population-level effects"]
      else []) := by
    split <;> simp [data.coefficients]
  have intercept : AreScoped scope (if s.terms.intercept then
      [.declare (.real {}) .temporaryIntercept none "temporary intercept"] else []) := by
    split <;> simp
  have auxiliaries : AreScoped scope (s.family.distribution.auxiliaries.map fun parameter =>
      .declare (.real (atLeast parameter.lower)) (.auxiliary parameter) none "") :=
    areScoped_of_forall (by simp [atLeast])
  have feedback : AreScoped scope (if s.autocorrelation.isSome then
      [.declare (.vector ⟨some "-1", some "1"⟩ Variable.order) .feedback none
        "autoregressive effects"] else []) := by
    split
    · rename_i structured
      simp [(data.lags structured).1]
    · exact Statement.areScoped_nil
  exact (((slopes.append intercept).append auxiliaries).append feedback).append
    (areScoped_flatMap fun group mem => areScoped_groupParameters data mem)

variable (parameters : HasParameters s scope)

/-- The declarations of a group's scaled effects use the sizes of the group. -/
theorem areScoped_effectDeclarations {group : Group} (mem : group ∈ s.terms.groups) :
    AreScoped scope (effectDeclarations group) := by
  obtain ⟨levels, effects⟩ := data.sizes group mem
  have columns : AreScoped scope (columnDeclarations group) :=
    areScoped_of_forall (by simp [columnDeclarations, levels])
  have matrix : AreScoped scope [.declare (.matrix (Variable.levelCount group.id)
      (Variable.effectCount group.id)) (.effects group.id) none "actual group-level effects"] := by
    simp [levels, effects]
  exact matrix.append columns

include parameters

/-- The scaled effects of a group use its parameters and, if it is known, its covariance. -/
theorem isScoped_scaledEffects {group : Group} (mem : group ∈ s.terms.groups) :
    (scaledEffects group).IsScoped scope := by
  obtain ⟨deviations, standardized⟩ := parameters.groups group mem
  unfold scaledEffects
  split
  · rename_i correlated
    simp [deviations, standardized, parameters.correlations group mem correlated]
  · split
    · rename_i known
      simp [deviations, standardized, data.covariances group mem known]
    · simp [deviations, standardized]

/-- The computation of a group's effects uses the parameters and the declared effects. -/
theorem areScoped_effectStatements (effects : HasEffects s scope) {group : Group}
    (mem : group ∈ s.terms.groups) : AreScoped scope (effectStatements group) := by
  have scaled := isScoped_scaledEffects data parameters mem
  have columns : AreScoped scope (columnStatements group) := by
    refine areScoped_of_forall ?_
    simp only [columnStatements, List.forall_mem_map, List.mem_range]
    intro k small
    simp [effects.effects group mem, effects.columns group mem k small]
  have matrix : AreScoped scope [.assign (Variable.effects group.id) (scaledEffects group)] := by
    simp [effects.effects group mem, scaled]
  exact matrix.append columns

/-- The transformed parameters block uses the data and the parameters. -/
theorem areScoped_transformedParametersBlock : AreScoped scope (transformedParametersBlock s) := by
  unfold transformedParametersBlock
  rw [Statement.areScoped_append]
  constructor
  · exact areScoped_flatMap fun group mem => areScoped_effectDeclarations data mem
  · have within := scope.within_declare
      ((s.terms.groups.flatMap effectDeclarations).flatMap Statement.declared)
    have effects : HasEffects s (scope.declare
        ((s.terms.groups.flatMap effectDeclarations).flatMap Statement.declared)) :=
      hasEffects s (List.subset_append_right _ _)
    exact areScoped_flatMap fun group mem =>
      areScoped_effectStatements (data.mono within) (parameters.mono within) effects mem

end Blocks

section Model

variable {s : Specification} {scope : Scope} (data : HasData s scope)
  (centering : HasCentering s scope) (parameters : HasParameters s scope)
  (effects : HasEffects s scope)

include data parameters

/-- The likelihood uses the response, the trials and the parameters of the distribution. -/
theorem isScoped_likelihood
    (trials : s.family.distribution.responseKind = .trials → s.formula.trials.isSome = true)
    {predictor : Expr} (inside : predictor.IsScoped scope) :
    (s.family.likelihood predictor).IsScoped scope := by
  have mean : (s.family.link.invert predictor).IsScoped scope := by
    unfold Link.invert
    split <;> exact inside
  have auxiliaries := parameters.auxiliaries
  have response := data.response
  unfold Family.likelihood
  generalize s.family.distribution = distribution at auxiliaries trials
  cases distribution with
  | gaussian | student | poisson | negbinomial | bernoulli =>
    simp_all [Distribution.density, Distribution.auxiliaries]
  | binomial =>
    have counted := data.trials (trials rfl)
    simp [Distribution.density, response, counted, mean]

include centering

/-- The product of the design and the slopes uses the form of the design that there is. -/
theorem isScoped_designSummands : ∀ e ∈ designSummands s, e.IsScoped scope := by
  unfold designSummands
  have counted := data.observations
  have coefficients := data.coefficients
  split
  · rename_i sparse
    have slopes := parameters.slopes (by simp_all [Specification.isSparse])
    have entries := data.sparse sparse
    simp_all
  · rename_i dense
    have design := data.design (by simpa using dense)
    split
    · rename_i centered
      have slopes := parameters.slopes (by simp_all [Specification.isCentered])
      simp [(centering centered).1, slopes]
    · split
      · rename_i given
        simp [design, parameters.slopes given]
      · simp

/-- The shared summands are added to the linear predictor. -/
theorem areScoped_sharedStatements (inside : .predictor ∈ scope.declared) :
    AreScoped scope (sharedStatements s) := by
  have each : ∀ e ∈ sharedSummands s, e.IsScoped scope := by
    unfold sharedSummands
    rw [List.forall_mem_append]
    refine ⟨?_, isScoped_designSummands data centering parameters⟩
    split
    · rename_i given
      simp [parameters.intercept given]
    · simp
  unfold sharedStatements
  split
  · exact Statement.areScoped_nil
  · rename_i first rest summands
    rw [summands, List.forall_mem_cons] at each
    have sum : ∀ (rest : List Expr) (first : Expr), first.IsScoped scope →
        (∀ e ∈ rest, e.IsScoped scope) → (rest.foldl (· + ·) first).IsScoped scope := by
      intro rest
      induction rest with
      | nil => exact fun first fine _ => fine
      | cons e rest ih =>
        intro first fine others
        rw [List.forall_mem_cons] at others
        exact ih (first + e) ⟨fine, others.1⟩ others.2
    simp [inside, sum rest first each.1 each.2]

omit centering parameters
include effects

/-- The varying summands use the data and the effects of their group. -/
theorem areScoped_groupSummands (inside : .predictor ∈ scope.declared)
    (looped : .observation ∈ scope.counters) {group : Group} (mem : group ∈ s.terms.groups) :
    AreScoped scope (groupSummands group) := by
  refine areScoped_of_forall ?_
  simp only [groupSummands, List.forall_mem_map, List.mem_range]
  intro k small
  simp [inside, looped, effects.columns group mem k small, data.levels group mem,
    data.columns group mem k small]

omit effects
include parameters

/-- The feedback uses the residuals and the numbers of lags. -/
theorem areScoped_feedbackStatements (structured : s.autocorrelation.isSome = true)
    (inside : ∀ v ∈ [Variable.predictor, .residualRows, .residuals], v ∈ scope.declared)
    (looped : .observation ∈ scope.counters) : AreScoped scope feedbackStatements := by
  obtain ⟨order, lags⟩ := data.lags structured
  have feedback := parameters.feedback structured
  have response := data.response
  simp_all [feedbackStatements, Statement.declared]

include effects

/-- The loop over the observations uses the data, the effects and the residuals. -/
theorem areScoped_observationLoop (inside : .predictor ∈ scope.declared)
    (residuals : s.autocorrelation.isSome = true →
      ∀ v ∈ [Variable.residualRows, .residuals], v ∈ scope.declared) :
    AreScoped scope (observationLoop s) := by
  have body : AreScoped (scope.count .observation) (observationStatements s) := by
    have looped : Counter.observation ∈ (scope.count .observation).counters := by simp
    have within : scope.Within (scope.count .observation) :=
      ⟨fun _ mem => mem, fun _ mem => List.mem_cons_of_mem _ mem⟩
    refine (areScoped_flatMap fun group mem => areScoped_groupSummands (data.mono within)
      (effects.mono within) inside looped mem).append ?_
    split
    · rename_i structured
      exact areScoped_feedbackStatements (data.mono within) (parameters.mono within) structured
        (List.forall_mem_cons.mpr ⟨inside, residuals structured⟩) looped
    · exact Statement.areScoped_nil
  unfold observationLoop
  split
  · exact Statement.areScoped_nil
  · simp [data.observations, body]

/-- The computation of the linear predictor declares it, and the residuals if there are any, before
it uses them. -/
theorem areScoped_predictorStatements (centering : HasCentering s scope) :
    AreScoped scope (predictorStatements s) := by
  have rows : AreScoped (scope.declare [.predictor]) (residualDeclarations s) := by
    unfold residualDeclarations
    split
    · rename_i structured
      simp [data.observations, (data.lags structured).1, Statement.declared]
    · exact Statement.areScoped_nil
  have residuals : s.autocorrelation.isSome = true → ∀ v ∈ [Variable.residualRows, .residuals],
      v ∈ (residualDeclarations s).flatMap Statement.declared := by
    intro structured
    simp [residualDeclarations, structured, Statement.declared]
  -- What follows the declarations sees all of them.
  let outer := (scope.declare [.predictor]).declare
    ((residualDeclarations s).flatMap Statement.declared)
  have within : scope.Within outer := by
    rw [show outer = scope.declare _ from Scope.declare_declare _ _ _]
    exact scope.within_declare _
  have predictor : .predictor ∈ outer.declared := by simp [outer]
  have shared : AreScoped outer (sharedStatements s) :=
    areScoped_sharedStatements (data.mono within) (centering.mono within) (parameters.mono within)
      predictor
  have loop : AreScoped outer (observationLoop s) :=
    areScoped_observationLoop (data.mono within) (parameters.mono within) (effects.mono within)
      predictor fun structured v mem =>
        List.mem_append_right _ (residuals structured v mem)
  simp only [predictorStatements, List.cons_append, Statement.areScoped_cons, List.append_assoc]
  constructor
  · simp [data.observations]
  · exact Statement.areScoped_append.mpr ⟨rows, shared.append loop⟩

end Model

section Priors

variable {s : Specification} {scope : Scope}

/-- The statement of a prior uses the parameter. -/
theorem areScoped_increment? {prior : Prior} {parameter : Expr} (inside : parameter.IsScoped scope) :
    AreScoped scope (prior.increment? parameter).toList := by
  unfold Prior.increment?
  split
  · exact Statement.areScoped_nil
  · unfold Prior.density
    split <;> simp [inside]

/-- The statements of the slopes' priors use the slopes. -/
theorem areScoped_slopeStatements (parameters : HasParameters s scope) :
    AreScoped scope (Priors.slopeStatements s.terms s.priors) := by
  unfold Priors.slopeStatements
  dsimp only
  split
  · exact Statement.areScoped_nil
  · rename_i first rest effective
    have slopes : .slopes ∈ scope.declared := by
      apply parameters.slopes
      have some : s.terms.population ≠ [] := by
        intro none
        simp [none] at effective
      simpa [Specification.hasSlopes] using some
    split
    · exact areScoped_increment? slopes
    · refine areScoped_filterMap fun entry _ => areScoped_increment? ?_
      simp [slopes]

/-- The statements of the priors of a group's parameters use these parameters. -/
theorem areScoped_priorsOfGroup (parameters : HasParameters s scope) {group : Group}
    (mem : group ∈ s.terms.groups) : AreScoped scope (Priors.groupStatements s.priors group) := by
  obtain ⟨deviations, standardized⟩ := parameters.groups group mem
  have each : AreScoped scope (group.coefficients.zipIdx.filterMap fun entry =>
      (Priors.lookup s.priors ⟨"sd", entry.1, group.factor⟩).increment?
        (Expr.element (.deviations group.id) (Expr.ofNat (entry.2 + 1)))) :=
    areScoped_filterMap fun entry _ => areScoped_increment? (by simp [deviations])
  have normal : AreScoped scope [.increment
      (.call "std_normal_lpdf" (.call "to_vector" (Variable.standardized group.id)))] := by
    simp [standardized]
  have correlations : AreScoped scope (if group.hasCorrelations then
      ((Priors.lookup s.priors ⟨"cor", "", group.factor⟩).increment?
        (Variable.correlationFactor group.id)).toList else []) := by
    split
    · rename_i correlated
      exact areScoped_increment? (parameters.correlations group mem correlated)
    · exact Statement.areScoped_nil
  exact each.append (normal.append correlations)

/-- The statements of the priors use the parameters. -/
theorem areScoped_priors (family : s.terms.family = s.family)
    (residuals : s.terms.autocorrelation = s.autocorrelation) (parameters : HasParameters s scope) :
    AreScoped scope (Priors.statements s.terms s.priors) := by
  have intercept : AreScoped scope (if s.terms.intercept then
      ((Priors.lookup s.priors ⟨"Intercept", "", ""⟩).increment? Variable.temporaryIntercept).toList
      else []) := by
    split
    · rename_i given
      exact areScoped_increment? (parameters.intercept given)
    · exact Statement.areScoped_nil
  have auxiliaries : AreScoped scope (s.terms.family.distribution.auxiliaries.flatMap
      fun parameter => ((Priors.lookup s.priors ⟨parameter.name, "", ""⟩).increment?
        (Variable.auxiliary parameter)).toList) :=
    areScoped_flatMap fun parameter mem =>
      areScoped_increment? (parameters.auxiliaries parameter (family ▸ mem))
  have feedback : AreScoped scope (if s.terms.autocorrelation.isSome then
      ((Priors.lookup s.priors ⟨"ar", "", ""⟩).increment? Variable.feedback).toList else []) := by
    split
    · rename_i structured
      exact areScoped_increment? (parameters.feedback (residuals ▸ structured))
    · exact Statement.areScoped_nil
  exact ((((areScoped_slopeStatements parameters).append intercept).append auxiliaries).append
    feedback).append (areScoped_flatMap fun group mem => areScoped_priorsOfGroup parameters mem)

/-- The model block uses the data, the parameters and the effects. -/
theorem areScoped_modelBlock {a : ModelArguments} (normal : IsNormal a s) (data : HasData s scope)
    (centering : HasCentering s scope) (parameters : HasParameters s scope)
    (effects : HasEffects s scope) : AreScoped scope (modelBlock s) := by
  obtain ⟨-, family, residuals⟩ := normal.tree
  have predictor := areScoped_predictorStatements data parameters effects centering
  let locals := (predictorStatements s).flatMap Statement.declared
  have within := scope.within_declare locals
  have declared : .predictor ∈ (scope.declare locals).declared := by
    simp [locals, predictorStatements, Statement.declared]
  have density : (s.family.likelihood Variable.predictor).IsScoped (scope.declare locals) :=
    isScoped_likelihood (data.mono within) (parameters.mono within) normal.trials.mpr declared
  have body : AreScoped scope (predictorStatements s ++
      [.increment (s.family.likelihood Variable.predictor)]) :=
    Statement.areScoped_append.mpr ⟨predictor, density, trivial⟩
  have likelihood : AreScoped scope [.comment "likelihood including constants",
      .unless .priorOnly (.ofList (predictorStatements s ++
        [.increment (s.family.likelihood Variable.predictor)])),
      .comment "priors including constants"] := by
    simp [Statement.declared, Scope.declare_nil, data.priorOnly, body]
  exact likelihood.append (areScoped_priors family residuals parameters)

end Priors

section Quantities

variable {s : Specification} {scope : Scope} (data : HasData s scope)
  (centering : HasCentering s scope) (parameters : HasParameters s scope)

include centering parameters in
/-- The intercept of the design as given uses the slopes and the means if there is a centered
design. -/
theorem areScoped_interceptQuantity : AreScoped scope (interceptQuantity s) := by
  unfold interceptQuantity
  split
  · rename_i given
    have intercept := parameters.intercept given
    split
    · rename_i centered
      have slopes := parameters.slopes (by simp_all [Specification.isCentered])
      simp [intercept, slopes, (centering centered).2]
    · simp [intercept]
  · exact Statement.areScoped_nil

include data parameters in
/-- The correlation matrices use their factors. -/
theorem areScoped_correlationQuantities : AreScoped scope (correlationQuantities s) := by
  refine areScoped_flatMap fun group mem => ?_
  dsimp only
  split
  · rename_i correlated
    simp [(data.sizes group mem).2, parameters.correlations group mem correlated]
  · exact Statement.areScoped_nil

/-- The bounds that draws from priors have to keep are numerals. -/
theorem areNumerals_of_mem_draws {tree : TermTree} {priors : List Prior} {draw : PriorDraw}
    (mem : draw ∈ Priors.draws tree priors) :
    ∀ bounds ∈ draw.bounds, Bounds.AreNumerals ⟨some bounds.1, bounds.2⟩ := by
  have drawOf : ∀ (v : Variable) (prior : Prior) (bounds : Option (String × Option String)),
      (∀ pair ∈ bounds, Bounds.AreNumerals ⟨some pair.1, pair.2⟩) →
      ∀ draw ∈ Priors.drawOf v prior bounds,
        ∀ pair ∈ draw.bounds, Bounds.AreNumerals ⟨some pair.1, pair.2⟩ := by
    intro v prior bounds fine draw mem
    unfold Priors.drawOf at mem
    split at mem
    · cases mem
    · rw [List.mem_singleton.mp mem]
      exact fine
  unfold Priors.draws at mem
  simp only [List.mem_append, List.mem_flatMap] at mem
  rcases mem with (((slopes | intercept) | ⟨parameter, _, own⟩) | feedback) | ⟨group, _, own⟩
  · split at slopes
    · cases slopes
    · exact drawOf _ _ _ (by simp) draw slopes
  · split at intercept
    · exact drawOf _ _ _ (by simp) draw intercept
    · cases intercept
  · exact drawOf _ _ _ (by simp) draw own
  · split at feedback
    · exact drawOf _ _ _ (by simp) draw feedback
    · cases feedback
  · exact drawOf _ _ _ (by simp) draw own

/-- Draws from priors are declared before they are made anew. -/
theorem areScoped_draws {draws : List PriorDraw} (numerals : ∀ draw ∈ draws,
    ∀ bounds ∈ draw.bounds, Bounds.AreNumerals ⟨some bounds.1, bounds.2⟩) :
    AreScoped scope (draws.map PriorDraw.declaration ++ draws.filterMap PriorDraw.redraw?) := by
  refine Statement.areScoped_append.mpr ⟨areScoped_of_forall ?_, areScoped_filterMap ?_⟩
  · simp [PriorDraw.declaration, Prior.draw]
  · intro draw mem
    have declared : draw.target ∈ (draws.map PriorDraw.declaration).flatMap Statement.declared := by
      rw [List.flatMap_map]
      exact List.mem_flatMap.mpr ⟨draw, mem, List.mem_singleton_self _⟩
    unfold PriorDraw.redraw?
    cases bounds : draw.bounds with
    | none => exact Statement.areScoped_nil
    | some pair =>
      have fine := numerals draw mem pair bounds
      exact ⟨⟨List.mem_append_right _ declared, fine, trivial⟩, trivial⟩

include data centering parameters in
/-- The generated quantities use the data and the parameters. -/
theorem areScoped_generatedQuantitiesBlock : AreScoped scope (generatedQuantitiesBlock s) := by
  unfold generatedQuantitiesBlock
  dsimp only
  rw [List.append_assoc _ (List.map _ _)]
  refine ((areScoped_interceptQuantity centering parameters).append
    (areScoped_correlationQuantities data parameters)).append (areScoped_draws ?_)
  split
  · exact fun draw mem => areNumerals_of_mem_draws mem
  · simp

end Quantities

/-- In the program of a model every statement uses nothing but what is declared before it in its own
block or in a block that its block sees. -/
theorem uses_declared {a : ModelArguments} {s : Specification}
    (accepted : (Specification.normalize a).outcome = .ok s) (block : Block)
    (before : List Statement) (statement : Statement) (after : List Statement)
    (split : (ofSpecification s).statements block = before ++ statement :: after) :
    statement.IsScoped
      ⟨(ofSpecification s).visible block ++ before.flatMap Statement.declared, []⟩ := by
  have normal := Specification.normalize_spec accepted
  let scope : Scope := ⟨(ofSpecification s).visible block, []⟩
  have fine : AreScoped scope ((ofSpecification s).statements block) := by
    have sees (seen : Block) (mem : seen ∈ block.sees) :
        ((ofSpecification s).statements seen).flatMap Statement.declared ⊆ scope.declared :=
      fun v inside => List.mem_flatMap.mpr ⟨seen, mem, inside⟩
    cases block with
    | functions => exact Statement.areScoped_nil
    | data => exact areScoped_dataBlock s scope
    | transformedData => exact areScoped_transformedDataBlock (hasData s (sees .data (by decide)))
    | parameters => exact areScoped_parametersBlock (hasData s (sees .data (by decide)))
    | transformedParameters =>
      exact areScoped_transformedParametersBlock (hasData s (sees .data (by decide)))
        (hasParameters s (sees .parameters (by decide)))
    | model =>
      have effects : (s.terms.groups.flatMap effectDeclarations).flatMap Statement.declared ⊆
          scope.declared := by
        refine List.Subset.trans ?_ (sees .transformedParameters (by decide))
        have both : (transformedParametersBlock s).flatMap Statement.declared = _ :=
          List.flatMap_append
        exact both ▸ List.subset_append_left _ _
      exact areScoped_modelBlock normal (hasData s (sees .data (by decide)))
        (hasCentering s (sees .transformedData (by decide)))
        (hasParameters s (sees .parameters (by decide))) (hasEffects s effects)
    | generatedQuantities =>
      exact areScoped_generatedQuantitiesBlock (hasData s (sees .data (by decide)))
        (hasCentering s (sees .transformedData (by decide)))
        (hasParameters s (sees .parameters (by decide)))
  exact areScoped_iff.mp fine before statement after split

/-- In the small model the loop that centers the design comes after the declarations of what it
computes. -/
theorem centering_declared : ∃ s before statement,
    (Specification.normalize Specification.sample).outcome = .ok s ∧
    (ofSpecification s).statements .transformedData = before ++ [statement] ∧
    before.flatMap Statement.declared = [.centered, .means] ∧
    statement.IsScoped
      ⟨(ofSpecification s).visible .transformedData ++ before.flatMap Statement.declared, []⟩ := by
  obtain ⟨s, accepted, centered⟩ := exists_of_any
    (Specification.normalize Specification.sample).outcome Specification.isCentered
      (by decide +kernel)
  have block : (ofSpecification s).statements .transformedData = [_, _] ++ [_] := if_pos centered
  exact ⟨s, _, _, accepted, block, rfl, uses_declared accepted .transformedData _ _ [] block⟩

end Program

end Multilevel
