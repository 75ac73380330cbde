import Multilevel.Proofs.Model.Normalize
import Multilevel.Proofs.Program.BuildData

/-!
# What a program declares

Every variable of a program belongs to the model as a whole, to one group or to the knots of one
column (`Variable.owner`), and the declarations of the five blocks are those of these owners
(`declared_perm`). Groups have different numbers, and no owner declares a variable twice, so two
declarations meet only where the knots of two columns have the same suffix.
-/
namespace Multilevel

/-- What a variable belongs to. -/
inductive Owner where
  | model
  | group (id : Nat)
  | knots (suffix : String)
  deriving DecidableEq

namespace Variable

/-- The owner of a variable. -/
def owner : Variable → Owner
  | levelCount i | effectCount i | levelIndex i | effectDesign i _ | covarianceFactor i |
    deviations i | standardized i | correlationFactor i | effects i | effect i _ | correlations i |
    priorDeviations i => .group i
  | knotCount suffix | knots suffix => .knots suffix
  | _ => .model

/-- The variables of the model as a whole, in the order of their declarations. -/
def ofModel : List Variable :=
  [observations, response, trials, coefficients, nonzeroCount, nonzeros, nonzeroColumns, rowStarts,
    design, order, lags, priorOnly, centered, means, slopes, temporaryIntercept, auxiliary .sigma,
    auxiliary .nu, auxiliary .shape, feedback, intercept, priorSlopes, priorIntercept,
    priorAuxiliary .sigma, priorAuxiliary .nu, priorAuxiliary .shape, priorFeedback]

/-- They are different and belong to the model. -/
theorem ofModel_spec : ofModel.Nodup ∧ ∀ v ∈ ofModel, v.owner = .model := by decide

/-- The variables of a group with a number of coefficients, in the order of their declarations. -/
def ofGroup (i size : Nat) : List Variable :=
  [levelCount i, effectCount i, levelIndex i] ++
    ((List.range size).map fun k => effectDesign i (k + 1)) ++
    [covarianceFactor i, deviations i, standardized i, correlationFactor i, effects i] ++
    ((List.range size).map fun k => effect i (k + 1)) ++ [correlations i, priorDeviations i]

/-- They are different and belong to the group. -/
theorem ofGroup_spec (i size : Nat) :
    (ofGroup i size).Nodup ∧ ∀ v ∈ ofGroup i size, v.owner = .group i := by
  have design : ((List.range size).map fun k => effectDesign i (k + 1)).Nodup :=
    List.nodup_range.map fun first second same => by simpa using same
  have effects : ((List.range size).map fun k => effect i (k + 1)).Nodup :=
    List.nodup_range.map fun first second same => by simpa using same
  constructor
  · have apart : ∀ k < size, ∀ v, (∃ l < size, effect i (l + 1) = v) ∨ v = correlations i ∨
        v = priorDeviations i → ¬effectDesign i (k + 1) = v := by
      rintro k _ v (⟨l, _, rfl⟩ | rfl | rfl) <;> exact nofun
    simpa [ofGroup, List.nodup_append, design, effects] using apart
  · simp only [ofGroup, List.forall_mem_append, List.forall_mem_cons, List.forall_mem_map,
      List.not_mem_nil, false_imp_iff, implies_true, and_true]
    exact ⟨⟨⟨⟨⟨rfl, rfl, rfl⟩, fun _ _ => rfl⟩, rfl, rfl, rfl, rfl, rfl⟩, fun _ _ => rfl⟩, rfl, rfl⟩

end Variable

namespace Program

open Specification (IsNormal)

/-- The variables that the generated program declares in its blocks other than the model block. -/
def declared (p : Program) : List Variable :=
  (p.data ++ p.transformedData ++ p.parameters ++ p.transformedParameters ++
    p.generatedQuantities).flatMap Statement.declared

variable (s : Specification)

/-- The draws from the priors of the parameters that belong to the model. -/
def modelDraws : List PriorDraw :=
  if s.samplePrior = .yes then
    let classPrior (name : String) : Prior := Priors.lookup s.priors ⟨name, "", ""⟩
    (if s.terms.population.isEmpty then []
      else Priors.drawOf .priorSlopes (classPrior "b") none) ++
    (if s.terms.intercept then Priors.drawOf .priorIntercept (classPrior "Intercept") none
      else []) ++
    (s.terms.family.distribution.auxiliaries.flatMap fun parameter =>
      Priors.drawOf (.priorAuxiliary parameter) (classPrior parameter.name)
        (some (parameter.lower, none))) ++
    (if s.terms.autocorrelation.isSome then
      Priors.drawOf .priorFeedback (classPrior "ar") (some ("-1", some "1")) else [])
  else []

/-- The draw from the prior of a group's deviations, if there is one. -/
def groupDraws (group : Group) : List PriorDraw :=
  if s.samplePrior = .yes then
    Priors.drawOf (.priorDeviations group.id) (Priors.lookup s.priors ⟨"sd", "", group.factor⟩)
      (some ("0", none))
  else []

/-- The declarations of parameters that belong to the model. -/
def modelParameters : List Statement :=
  (if s.hasSlopes then
    [.declare (.vector {} Variable.coefficients) .slopes none "population-level effects"]
    else []) ++
    (if s.terms.intercept then
      [.declare (.real {}) .temporaryIntercept none "temporary intercept"] else []) ++
    (s.family.distribution.auxiliaries.map fun parameter =>
      .declare (.real (atLeast parameter.lower)) (.auxiliary parameter) none "") ++
    (if s.autocorrelation.isSome then
      [.declare (.vector ⟨some "-1", some "1"⟩ Variable.order) .feedback none
        "autoregressive effects"] else [])

/-- The statements about variables of the model. -/
def modelStatements : List Statement :=
  [.declare (.int (atLeast "1")) .observations none "number of observations"] ++ responseData s ++
    designData s ++ lagData s ++
    [.declare (.int {}) .priorOnly none "should the likelihood be ignored?"] ++
    transformedDataBlock s ++ modelParameters s ++ interceptQuantity s ++
    (modelDraws s).map PriorDraw.declaration

/-- The correlation matrix of a group, if correlations are estimated. -/
def correlationQuantity (group : Group) : List Statement :=
  if group.hasCorrelations then
    [.declare (.correlations (Variable.effectCount group.id)) (.correlations group.id)
      (some (.call "multiply_lower_tri_self_transpose" (Variable.correlationFactor group.id))) ""]
  else []

/-- The statements about variables of a group. -/
def groupStatements (group : Group) : List Statement :=
  groupData group ++ groupParameters group ++ effectDeclarations group ++
    correlationQuantity group ++ (groupDraws s group).map PriorDraw.declaration

/-- All draws are those of the model and of the groups. -/
theorem draws_eq :
    (if s.samplePrior = .yes then Priors.draws s.terms s.priors else []) =
      modelDraws s ++ s.terms.groups.flatMap (groupDraws s) := by
  unfold modelDraws groupDraws
  split
  · rfl
  · simp

/-- The statements of the five blocks, by what they are about; the computations and the draws made
anew declare nothing. -/
theorem statements_perm :
    (dataBlock s ++ transformedDataBlock s ++ parametersBlock s ++ transformedParametersBlock s ++
      generatedQuantitiesBlock s).Perm
    (modelStatements s ++ s.terms.groups.flatMap (groupStatements s) ++
      (s.knots.flatMap fun (name, _) => knotData name) ++
      (s.terms.groups.flatMap effectStatements ++
        (modelDraws s ++ s.terms.groups.flatMap (groupDraws s)).filterMap PriorDraw.redraw?)) := by
  have parameters : parametersBlock s = modelParameters s ++ s.terms.groups.flatMap groupParameters :=
    rfl
  have quantities : generatedQuantitiesBlock s = interceptQuantity s ++
      s.terms.groups.flatMap correlationQuantity ++
        (modelDraws s ++ s.terms.groups.flatMap (groupDraws s)).map PriorDraw.declaration ++
        (modelDraws s ++ s.terms.groups.flatMap (groupDraws s)).filterMap PriorDraw.redraw? := by
    rw [← draws_eq]
    rfl
  rw [parameters, quantities, dataBlock, transformedParametersBlock, List.perm_iff_count]
  intro statement
  have sums (f g : Group → Nat) : ((s.terms.groups.map fun group => f group + g group).sum) =
      (s.terms.groups.map f).sum + (s.terms.groups.map g).sum := List.sum_map_add
  simp only [modelStatements, groupStatements, List.count_append, List.count_flatMap,
    List.map_append, List.map_flatMap, Function.comp_def, sums, List.count_cons, List.count_nil,
    List.cons_append, List.nil_append]
  omega

/-- The computation of the effects declares nothing. -/
theorem declared_effectStatements (groups : List Group) :
    (groups.flatMap effectStatements).flatMap Statement.declared = [] := by
  simp only [List.flatMap_eq_nil_iff, List.mem_flatMap, effectStatements, columnStatements,
    List.mem_cons, List.mem_map]
  rintro _ ⟨group, _, rfl | ⟨k, _, rfl⟩⟩ <;> rfl

/-- Drawing anew declares nothing. -/
theorem declared_redraws (draws : List PriorDraw) :
    (draws.filterMap PriorDraw.redraw?).flatMap Statement.declared = [] := by
  simp only [List.flatMap_eq_nil_iff, List.mem_filterMap, PriorDraw.redraw?, Option.map_eq_some_iff]
  rintro _ ⟨draw, _, bounds, _, rfl⟩
  rfl

/-- The variables of the blocks, by their owners. -/
theorem declared_perm : (ofSpecification s).declared.Perm
    ((modelStatements s).flatMap Statement.declared ++
      (s.terms.groups.flatMap fun group => (groupStatements s group).flatMap Statement.declared) ++
      s.knots.flatMap fun (name, _) =>
        [.knotCount (nameSuffix name), .knots (nameSuffix name)]) := by
  have owners : (modelStatements s ++ s.terms.groups.flatMap (groupStatements s) ++
      (s.knots.flatMap fun (name, _) => knotData name) ++
      (s.terms.groups.flatMap effectStatements ++
        (modelDraws s ++ s.terms.groups.flatMap (groupDraws s)).filterMap
          PriorDraw.redraw?)).flatMap Statement.declared =
      (modelStatements s).flatMap Statement.declared ++
        (s.terms.groups.flatMap fun group => (groupStatements s group).flatMap Statement.declared) ++
        s.knots.flatMap fun (name, _) =>
          [.knotCount (nameSuffix name), .knots (nameSuffix name)] := by
    simp only [List.flatMap_append, declared_effectStatements, declared_redraws, List.append_nil]
    simp only [List.flatMap_assoc]
    rfl
  exact owners ▸ (statements_perm s).flatMap_right Statement.declared

/-- A draw declares the variable that it is kept in. -/
theorem declared_draws (draws : List PriorDraw) :
    (draws.map PriorDraw.declaration).flatMap Statement.declared = draws.map PriorDraw.target := by
  rw [List.flatMap_map, List.map_eq_flatMap]
  rfl

/-- A draw is kept in the variable that is given, if there is a prior. -/
theorem target_drawOf (v : Variable) (prior : Prior) (bounds : Option (String × Option String)) :
    ((Priors.drawOf v prior bounds).map PriorDraw.target).Sublist [v] := by
  unfold Priors.drawOf
  split <;> simp

/-- The parameters of a distribution come in one order. -/
theorem auxiliaries_sublist (distribution : Distribution) :
    distribution.auxiliaries.Sublist [.sigma, .nu, .shape] := by
  cases distribution <;> decide

/-- The draws for parameters of the model are some of those that there may be. -/
theorem modelDraws_sublist : ((modelDraws s).map PriorDraw.target).Sublist
    [.priorSlopes, .priorIntercept, .priorAuxiliary .sigma, .priorAuxiliary .nu,
      .priorAuxiliary .shape, .priorFeedback] := by
  have auxiliaries (priors : Auxiliary → Prior) (bounds : Auxiliary → _) :
      ((s.terms.family.distribution.auxiliaries.flatMap fun parameter =>
        Priors.drawOf (.priorAuxiliary parameter) (priors parameter) (bounds parameter)).map
          PriorDraw.target).Sublist
      [.priorAuxiliary .sigma, .priorAuxiliary .nu, .priorAuxiliary .shape] := by
    have each (parameters : List Auxiliary) : ((parameters.flatMap fun parameter =>
        Priors.drawOf (.priorAuxiliary parameter) (priors parameter) (bounds parameter)).map
          PriorDraw.target).Sublist (parameters.map .priorAuxiliary) := by
      induction parameters with
      | nil => exact .slnil
      | cons parameter rest ih =>
        rw [List.flatMap_cons, List.map_append]
        exact (target_drawOf _ _ _).append ih
    exact (each _).trans ((auxiliaries_sublist _).map _)
  unfold modelDraws
  split
  · simp only [List.map_append]
    have slopes : ((if s.terms.population.isEmpty then []
        else Priors.drawOf .priorSlopes (Priors.lookup s.priors ⟨"b", "", ""⟩) none).map
          PriorDraw.target).Sublist [.priorSlopes] := by
      split
      · exact List.nil_sublist _
      · exact target_drawOf _ _ _
    have intercept : ((if s.terms.intercept then
        Priors.drawOf .priorIntercept (Priors.lookup s.priors ⟨"Intercept", "", ""⟩) none
          else []).map PriorDraw.target).Sublist [.priorIntercept] := by
      split
      · exact target_drawOf _ _ _
      · exact List.nil_sublist _
    have feedback : ((if s.terms.autocorrelation.isSome then
        Priors.drawOf .priorFeedback (Priors.lookup s.priors ⟨"ar", "", ""⟩) (some ("-1", some "1"))
          else []).map PriorDraw.target).Sublist [.priorFeedback] := by
      split
      · exact target_drawOf _ _ _
      · exact List.nil_sublist _
    exact ((slopes.append intercept).append (auxiliaries _ _)).append feedback
  · exact List.nil_sublist _

/-- The variables of the model are some of those that there may be, in their order. -/
theorem modelStatements_sublist :
    ((modelStatements s).flatMap Statement.declared).Sublist Variable.ofModel := by
  have response : ((responseData s).flatMap Statement.declared).Sublist [.response, .trials] := by
    unfold responseData
    split <;> split <;> decide
  have design : ((designData s).flatMap Statement.declared).Sublist
      [.coefficients, .nonzeroCount, .nonzeros, .nonzeroColumns, .rowStarts, .design] := by
    unfold designData
    split <;> decide
  have lags : ((lagData s).flatMap Statement.declared).Sublist [.order, .lags] := by
    unfold lagData
    split <;> decide
  have centering : ((transformedDataBlock s).flatMap Statement.declared).Sublist
      [.centered, .means] := by
    unfold transformedDataBlock
    split <;> decide
  have parameters : ((modelParameters s).flatMap Statement.declared).Sublist
      [.slopes, .temporaryIntercept, .auxiliary .sigma, .auxiliary .nu, .auxiliary .shape,
        .feedback] := by
    have auxiliaries : ((s.family.distribution.auxiliaries.map fun parameter =>
        Statement.declare (.real (atLeast parameter.lower)) (.auxiliary parameter) none "").flatMap
          Statement.declared).Sublist [.auxiliary .sigma, .auxiliary .nu, .auxiliary .shape] := by
      rw [List.flatMap_map]
      exact List.map_eq_flatMap ▸ (auxiliaries_sublist s.family.distribution).map Variable.auxiliary
    unfold modelParameters
    simp only [List.flatMap_append]
    have slopes : ((if s.hasSlopes then [Statement.declare (.vector {} Variable.coefficients) .slopes
        none "population-level effects"] else []).flatMap Statement.declared).Sublist [.slopes] := by
      split <;> decide
    have intercept : ((if s.terms.intercept then [Statement.declare (.real {}) .temporaryIntercept
        none "temporary intercept"] else []).flatMap Statement.declared).Sublist
          [.temporaryIntercept] := by
      split <;> decide
    have feedback : ((if s.autocorrelation.isSome then
        [Statement.declare (.vector ⟨some "-1", some "1"⟩ Variable.order) .feedback none
          "autoregressive effects"] else []).flatMap Statement.declared).Sublist [.feedback] := by
      split <;> decide
    exact ((slopes.append intercept).append auxiliaries).append feedback
  have intercept : ((interceptQuantity s).flatMap Statement.declared).Sublist [.intercept] := by
    unfold interceptQuantity
    split
    · split <;> exact List.Sublist.refl _
    · exact List.nil_sublist _
  unfold modelStatements
  simp only [List.flatMap_append, declared_draws]
  exact ((((((((List.Sublist.refl [.observations]).append response).append design).append
    lags).append (List.Sublist.refl [.priorOnly])).append centering).append parameters).append
      intercept).append (modelDraws_sublist s)

/-- The variables that a group declares are some of those that it may have, in their order. -/
theorem groupStatements_sublist (group : Group) :
    ((groupStatements s group).flatMap Statement.declared).Sublist
      (Variable.ofGroup group.id group.size) := by
  have each (v : Nat → Variable) (type : VariableType) :
      ((List.range group.size).map fun k => Statement.declare type (v (k + 1)) none "").flatMap
        Statement.declared = (List.range group.size).map fun k => v (k + 1) := by
    rw [List.flatMap_map, List.map_eq_flatMap]
    rfl
  have data : ((groupData group).flatMap Statement.declared).Sublist
      ([.levelCount group.id, .effectCount group.id, .levelIndex group.id] ++
        ((List.range group.size).map fun k => .effectDesign group.id (k + 1)) ++
          [.covarianceFactor group.id]) := by
    unfold groupData
    simp only [List.flatMap_append, each]
    refine ((List.Sublist.refl _).append (List.Sublist.refl _)).append ?_
    split
    · exact List.Sublist.refl _
    · exact List.nil_sublist _
  have parameters : ((groupParameters group).flatMap Statement.declared).Sublist
      [.deviations group.id, .standardized group.id, .correlationFactor group.id] := by
    unfold groupParameters
    split
    · exact List.Sublist.refl _
    · exact ((List.nil_sublist _).cons_cons _).cons_cons _
  have effects : (effectDeclarations group).flatMap Statement.declared = .effects group.id ::
      (List.range group.size).map fun k => .effect group.id (k + 1) := by
    unfold effectDeclarations columnDeclarations
    rw [List.flatMap_cons, each]
    rfl
  have correlations : ((correlationQuantity group).flatMap Statement.declared).Sublist
      [.correlations group.id] := by
    unfold correlationQuantity
    split
    · exact List.Sublist.refl _
    · exact List.nil_sublist _
  have draws : ((groupDraws s group).map PriorDraw.target).Sublist
      [.priorDeviations group.id] := by
    unfold groupDraws
    split
    · exact target_drawOf _ _ _
    · exact List.nil_sublist _
  unfold groupStatements
  simp only [List.flatMap_append, declared_draws, effects]
  have whole := (((data.append parameters).append (List.Sublist.refl (.effects group.id ::
    (List.range group.size).map fun k => .effect group.id (k + 1)))).append correlations).append draws
  simpa [Variable.ofGroup] using whole

/-- The variables of knots are different exactly if the suffixes of their columns are. -/
theorem nodup_knots {knots : List (String × List Float)} :
    (knots.flatMap fun (name, _) =>
      [Variable.knotCount (nameSuffix name), .knots (nameSuffix name)]).Nodup ↔
        (knots.map fun entry => nameSuffix entry.1).Nodup := by
  rw [List.nodup_flatMap, List.nodup_iff_pairwise_ne, List.pairwise_map]
  constructor
  · rintro ⟨_, apart⟩
    refine apart.imp fun disjoint same => ?_
    exact disjoint List.mem_cons_self (by simp [same])
  · intro differ
    refine ⟨fun entry _ => by simp, differ.imp fun other v first second => ?_⟩
    simp only [List.mem_cons, List.not_mem_nil, or_false] at first second
    rcases first with rfl | rfl <;> simp [other] at second

/-- The variables of different groups are different. -/
theorem nodup_groups {a : ModelArguments} {s : Specification} (normal : IsNormal a s) :
    (s.terms.groups.flatMap fun group =>
      (groupStatements s group).flatMap Statement.declared).Nodup := by
  have ids : (s.terms.groups.map Group.id).Nodup := by
    rw [normal.groups.ids]
    exact List.nodup_range'
  refine List.nodup_flatMap.mpr ⟨fun group _ =>
    (groupStatements_sublist s group).nodup (Variable.ofGroup_spec _ _).1, ?_⟩
  rw [List.nodup_iff_pairwise_ne, List.pairwise_map] at ids
  refine ids.imp fun {first second} differ v here there => differ ?_
  have one := (Variable.ofGroup_spec _ _).2 v ((groupStatements_sublist s first).subset here)
  have two := (Variable.ofGroup_spec _ _).2 v ((groupStatements_sublist s second).subset there)
  exact Owner.group.inj (one.symm.trans two)

/-- The variables that a program declares are different exactly if no two columns with knots have
the same suffix. -/
theorem nodup_declared {a : ModelArguments} {s : Specification} (normal : IsNormal a s) :
    (ofSpecification s).declared.Nodup ↔ (s.knots.map fun entry => nameSuffix entry.1).Nodup := by
  have model : ∀ v ∈ (modelStatements s).flatMap Statement.declared, v.owner = .model :=
    fun v mem => Variable.ofModel_spec.2 v ((modelStatements_sublist s).subset mem)
  have groups : ∀ v ∈ s.terms.groups.flatMap fun group =>
      (groupStatements s group).flatMap Statement.declared, ∃ i, v.owner = .group i := by
    intro v mem
    obtain ⟨group, _, here⟩ := List.mem_flatMap.mp mem
    exact ⟨_, (Variable.ofGroup_spec _ _).2 v ((groupStatements_sublist s group).subset here)⟩
  have knots : ∀ v ∈ s.knots.flatMap fun (name, _) =>
      [Variable.knotCount (nameSuffix name), .knots (nameSuffix name)],
        ∃ suffix, v.owner = .knots suffix := by
    intro v mem
    obtain ⟨⟨name, _⟩, _, here⟩ := List.mem_flatMap.mp mem
    simp only [List.mem_cons, List.not_mem_nil, or_false] at here
    rcases here with rfl | rfl <;> exact ⟨_, rfl⟩
  rw [(declared_perm s).nodup_iff, List.nodup_append', List.nodup_append', ← nodup_knots]
  constructor
  · exact fun all => all.2.1
  · intro distinct
    refine ⟨⟨(modelStatements_sublist s).nodup Variable.ofModel_spec.1, nodup_groups normal, ?_⟩,
      distinct, ?_⟩
    · intro v shared own
      obtain ⟨i, owned⟩ := groups v own
      exact nomatch (model v shared).symm.trans owned
    · intro v first last
      obtain ⟨suffix, owned⟩ := knots v last
      rcases List.mem_append.mp first with shared | own
      · exact nomatch (model v shared).symm.trans owned
      · obtain ⟨i, other⟩ := groups v own
        exact nomatch other.symm.trans owned

/-- The variables of the data are different exactly if no two columns with knots have the same
suffix. -/
theorem nodup_dataBlock {a : ModelArguments} {s : Specification} (normal : IsNormal a s) :
    ((dataBlock s).flatMap Statement.declared).Nodup ↔
      (s.knots.map fun entry => nameSuffix entry.1).Nodup := by
  constructor
  · intro distinct
    rw [← nodup_knots]
    refine distinct.sublist ?_
    rw [dataBlock, List.flatMap_append, List.flatMap_append, List.flatMap_assoc]
    exact (List.sublist_append_right _ _).trans (List.sublist_append_left _ _)
  · intro distinct
    have inside : ((dataBlock s).flatMap Statement.declared).Sublist (ofSpecification s).declared := by
      rw [declared, List.flatMap_append, List.flatMap_append, List.flatMap_append,
        List.flatMap_append]
      exact (((List.sublist_append_left _ _).trans (List.sublist_append_left _ _)).trans
        (List.sublist_append_left _ _)).trans (List.sublist_append_left _ _)
    exact ((nodup_declared normal).mpr distinct).sublist inside

end Program

namespace BuildData

/-- No value overwrites another one exactly if the variables are different. -/
theorem ofValues_eq_iff {values : List (Variable × Datum)} :
    ofValues values = values.map (fun (v, datum) => (v.name, datum)) ↔
      (values.map Prod.fst).Nodup := by
  have names : (values.map fun (v, datum) => (v.name, datum)).map Prod.fst =
      (values.map Prod.fst).map Variable.name := by
    rw [List.map_map, List.map_map]
    rfl
  constructor
  · intro kept
    have keys := Entries.keys_putAll (values.map fun (v, datum) => (v.name, datum))
    rw [show Entries.putAll [] (values.map fun (v, datum) => (v.name, datum)) = _ from kept,
      names] at keys
    exact (keys ▸ nodup_eraseDups _).of_map _
  · intro distinct
    exact Entries.putAll_of_nodup (names ▸ distinct.map Variable.name_injective)

end BuildData

namespace Specification

/-- The names that the blocks of a program declare are different exactly if no two columns with knots
have the same suffix, and exactly then no value of the data overwrites another one. There is a value
for each declaration of the data block, and without code of the user there are no others. -/
theorem distinct_names {a : ModelArguments} {s : Specification}
    (done : (normalize a).outcome = .ok s) :
    (((Program.ofSpecification s).declared.map Variable.name).Nodup ↔
      (s.knots.map fun entry => nameSuffix entry.1).Nodup) ∧
    ∃ values, BuildData.generated s = .ok values ∧
      values.map Prod.fst = (Program.dataBlock s).flatMap Statement.declared ∧
      (s.fragments.data = [] →
        BuildData.ofSpecification s = .ok (BuildData.ofValues values)) ∧
      (BuildData.ofValues values = values.map (fun (v, datum) => (v.name, datum)) ↔
        (s.knots.map fun entry => nameSuffix entry.1).Nodup) := by
  have normal := normalize_spec done
  obtain ⟨columns, design, labels⟩ := normal.design
  obtain ⟨values, _, made, provided, _⟩ := BuildData.generated_spec normal ⟨design, labels⟩
  refine ⟨?_, values, made, provided.1, fun own => ?_, ?_⟩
  · rw [List.nodup_map_iff Variable.name_injective]
    exact Program.nodup_declared normal
  · rw [BuildData.ofSpecification, made, own]
    rfl
  · rw [BuildData.ofValues_eq_iff, provided.1]
    exact Program.nodup_dataBlock normal

/-- A small model with two columns. -/
def twoColumns (column : String) : ModelArguments where
  formula := s!"y ~ a.b + {column}"
  data := .table ⟨3, [("y", .int #[2, 3, 5].toVector), ("a.b", .int #[0, 1, 4].toVector),
    (column, .int #[1, 0, 2].toVector)]⟩

/-- Knots on both of them. -/
def knotsOf (column : String) : List (String × List Float) :=
  [("a.b", [1.0, 3.0]), (column, [2.0])]

/-- The small model with these knots is accepted. -/
theorem normalize_knotted {column : String} {s : Specification}
    (accepted : (normalize (twoColumns column)).outcome = .ok s) (order : "a.b" ≤ column)
    (known : "a.b" ∈ s.formula.names ∧ column ∈ s.formula.names) :
    (normalize { twoColumns column with knots := knotsOf column }).outcome =
      .ok { s with knots := knotsOf column } := by
  have ascending : [1.0, 3.0].Pairwise fun x y : Float => x ≤ y := by decide +kernel
  have finite : ([1.0, 3.0].isEmpty || !([1.0, 3.0].all Number.isFinite)) = false ∧
      ([2.0].isEmpty || !([2.0].all Number.isFinite)) = false := by decide +kernel
  have checked : checkAllKnots s.formula (knotsOf column) = .ok (knotsOf column) := by
    refine checkAllKnots_of_ordered (by simpa [knotsOf] using order) ?_
    simp only [knotsOf, List.forall_mem_cons, List.not_mem_nil, false_imp_iff, implies_true,
      and_true]
    exact ⟨⟨known.1, finite.1, ascending⟩, known.2, finite.2, List.pairwise_singleton _ _⟩
  exact normalize_eq_ok_iff.mpr ((normalize_eq_ok_iff.mp accepted).knotted checked)

/-- With different suffixes all knots are kept. -/
theorem knotted_distinct_names : ∃ s values,
    (normalize { twoColumns "c" with knots := knotsOf "c" }).outcome = .ok s ∧
      ((Program.ofSpecification s).declared.map Variable.name).Nodup ∧
        BuildData.generated s = .ok values ∧
          BuildData.ofSpecification s = .ok (values.map fun (v, datum) => (v.name, datum)) := by
  obtain ⟨s, accepted, computed⟩ := exists_of_any (normalize (twoColumns "c")).outcome
    (fun s => s.fragments.data.isEmpty ∧ "a.b" ∈ s.formula.names ∧ "c" ∈ s.formula.names)
    (by decide +kernel)
  obtain ⟨own, known⟩ := of_decide_eq_true computed
  have suffixes : ((knotsOf "c").map fun entry => nameSuffix entry.1).Nodup := by decide +kernel
  have knotted := normalize_knotted accepted (by decide) known
  obtain ⟨names, values, made, _, whole, kept⟩ := distinct_names knotted
  refine ⟨_, values, knotted, names.mpr suffixes, made, ?_⟩
  rw [whole (List.isEmpty_iff.mp own), kept.mpr suffixes]

/-- A point and an underscore give the same suffix, so names are declared twice and the knots of one
column are lost. -/
theorem knots_overwritten : ∃ s values data,
    (normalize { twoColumns "a_b" with knots := knotsOf "a_b" }).outcome = .ok s ∧
      s.fragments.data = [] ∧ ¬((Program.ofSpecification s).declared.map Variable.name).Nodup ∧
        BuildData.generated s = .ok values ∧ BuildData.ofSpecification s = .ok data ∧
          data.length + 2 = values.length := by
  obtain ⟨s, accepted, computed⟩ := exists_of_any (normalize (twoColumns "a_b")).outcome
    (fun s => s.fragments.data.isEmpty ∧ ("a.b" ∈ s.formula.names ∧ "a_b" ∈ s.formula.names) ∧
      ¬((Program.ofSpecification { s with knots := knotsOf "a_b" }).declared.map
        Variable.name).Nodup ∧
      (BuildData.generated { s with knots := knotsOf "a_b" }).toOption.any fun values =>
        (BuildData.ofSpecification { s with knots := knotsOf "a_b" }).toOption.any fun data =>
          data.length + 2 = values.length)
    (by decide +kernel)
  obtain ⟨own, known, twice, computed⟩ := of_decide_eq_true computed
  obtain ⟨values, made, computed⟩ := exists_of_any _ _ computed
  obtain ⟨data, built, computed⟩ := exists_of_any _ _ computed
  exact ⟨_, values, data, normalize_knotted accepted (by decide) known, List.isEmpty_iff.mp own,
    twice, made, built, of_decide_eq_true computed⟩

end Specification

end Multilevel
