import Mathlib
import Multilevel.Program.PriorStatement
import Multilevel.Proofs.Prior.Effective
import Multilevel.Proofs.Prior.Slots
import Multilevel.Proofs.Program.Declared

/-!
# Priors are added once

A log density is of a variable or of one of its elements (`Statement.parameter?`), and one of a
whole variable stands for all of its elements. The statements of the priors are planned parameter
by parameter (`Priors.planned`); no two of the planned parameters overlap, so that each statement is
the only one of its parameter. Main statement: each parameter of a model gets the prior in effect
for it exactly once, the standardized effects are standard normal, and nothing else is added to the
target (`Priors.adds_each_once`).
-/
namespace Multilevel

/-- A parameter of a model: a variable, or an element of one. -/
structure ModelParameter where
  /-- The variable. -/
  holder : Variable
  /-- The place of the element, if it is one. -/
  place : Option Expr := none
  deriving DecidableEq

namespace ModelParameter

/-- The expression of a parameter. -/
def expr (p : ModelParameter) : Expr :=
  match p.place with
  | none => p.holder
  | some place => .element p.holder place

/-- Whether a parameter is another one or the whole variable that the other one is an element of. -/
def Covers (p q : ModelParameter) : Prop := p.holder = q.holder ∧ (p.place = none ∨ p.place = q.place)

instance (p q : ModelParameter) : Decidable (p.Covers q) := inferInstanceAs (Decidable (_ ∧ _))

/-- Whether neither of two parameters covers the other one. -/
def Apart (p q : ModelParameter) : Prop := ¬p.Covers q ∧ ¬q.Covers p

instance (p q : ModelParameter) : Decidable (p.Apart q) := inferInstanceAs (Decidable (_ ∧ _))

/-- A parameter covers itself. -/
theorem covers_self (p : ModelParameter) : p.Covers p := ⟨rfl, .inr rfl⟩

/-- Parameters in different variables are apart. -/
theorem apart_of_holder {p q : ModelParameter} (differ : p.holder ≠ q.holder) : p.Apart q :=
  ⟨fun covers => differ covers.1, fun covers => differ covers.1.symm⟩

/-- Elements at different places are apart. -/
theorem apart_of_place {v w : Variable} {i j : Nat} (differ : i ≠ j) :
    Apart ⟨v, some (Expr.ofNat i)⟩ ⟨w, some (Expr.ofNat j)⟩ := by
  have places : ∀ i j : Nat, Expr.ofNat i = Expr.ofNat j → i = j := by
    intro i j same
    exact Nat.repr_inj.mp (Expr.literal.inj same)
  constructor
  · rintro ⟨_, none | same⟩
    · cases none
    · exact differ (places i j (Option.some.inj same))
  · rintro ⟨_, none | same⟩
    · cases none
    · exact differ (places j i (Option.some.inj same)).symm

/-- What is apart from a parameter covers nothing that the parameter covers. -/
theorem Apart.not_covers {p q r : ModelParameter} (apart : p.Apart q) (covers : p.Covers r) :
    ¬q.Covers r := by
  rintro ⟨holder, place⟩
  have same : p.holder = q.holder := covers.1.trans holder.symm
  rcases covers.2 with whole | own
  · exact apart.1 ⟨same, .inl whole⟩
  · rcases place with whole | other
    · exact apart.2 ⟨same.symm, .inl whole⟩
    · exact apart.1 ⟨same, .inr (own.trans other.symm)⟩

end ModelParameter

/-- The parameter that an expression stands for. The elements of a matrix may be put into one
vector. -/
def Expr.parameter? : Expr → Option ModelParameter
  | var v | call "to_vector" (var v) => some ⟨v, none⟩
  | subscript (var v) place => some ⟨v, some place⟩
  | _ => none

/-- The parameter whose log density a statement adds to the target. -/
def Statement.parameter? : Statement → Option ModelParameter
  | increment (.call _ (.binary .given outcome _)) | increment (.call _ outcome) =>
    outcome.parameter?
  | _ => none

/-- Whether a statement adds the log density of a parameter, by itself or with others. -/
def Statement.Adds (p : ModelParameter) (statement : Statement) : Prop :=
  ∃ q ∈ statement.parameter?, q.Covers p

instance (p : ModelParameter) (statement : Statement) : Decidable (statement.Adds p) :=
  inferInstanceAs (Decidable (∃ q ∈ statement.parameter?, q.Covers p))

/-- The log density of a call at a parameter. -/
def DistributionCall.density (call : DistributionCall) (parameter : Expr) : Expr :=
  .call (programDistribution call.name ++ "_lpdf")
    (if call.arguments.isEmpty then parameter
      else .binary .given parameter (.verbatim call.arguments))

namespace Priors

section Plan

variable (tree : TermTree) (priors : List Prior)

/-- The elements of the slopes, each with its slot. -/
def slopeEntries : List (ModelParameter × Slot) :=
  tree.population.zipIdx.map fun (coefficient, k) =>
    (⟨.slopes, some (Expr.ofNat (k + 1))⟩, ⟨"b", coefficient, ""⟩)

/-- The parameters that are variables of the whole model, each with its slot. -/
def modelEntries : List (ModelParameter × Slot) :=
  (if tree.intercept then [(⟨.temporaryIntercept, none⟩, ⟨"Intercept", "", ""⟩)] else []) ++
    (tree.family.distribution.auxiliaries.map fun parameter =>
      (⟨.auxiliary parameter, none⟩, ⟨parameter.name, "", ""⟩)) ++
    (if tree.autocorrelation.isSome then [(⟨.feedback, none⟩, ⟨"ar", "", ""⟩)] else [])

/-- The standard deviations of a group, each with its slot. -/
def deviationEntries (group : Group) : List (ModelParameter × Slot) :=
  group.coefficients.zipIdx.map fun (coefficient, k) =>
    (⟨.deviations group.id, some (Expr.ofNat (k + 1))⟩, ⟨"sd", coefficient, group.factor⟩)

/-- The correlations of a group, if it has any, with their slot. -/
def correlationEntries (group : Group) : List (ModelParameter × Slot) :=
  if group.hasCorrelations then
    [(⟨.correlationFactor group.id, none⟩, ⟨"cor", "", group.factor⟩)] else []

/-- The parameters of a model that have a prior in effect, each with its slot. -/
def entries : List (ModelParameter × Slot) :=
  slopeEntries tree ++ modelEntries tree ++
    tree.groups.flatMap fun group => deviationEntries group ++ correlationEntries group

/-- The statement that adds the standard normal density of a group's standardized effects. -/
def standardNormal (group : Group) : Statement :=
  .increment (.call "std_normal_lpdf" (.call "to_vector" (Variable.standardized group.id)))

/-- A parameter with the statement that adds its prior, if it has one. -/
def plan (entry : ModelParameter × Slot) : ModelParameter × Option Statement :=
  (entry.1, (lookup priors entry.2).increment? entry.1.expr)

/-- The slopes with their statements: one for all of them if their priors have one text. -/
def plannedSlopes : List (ModelParameter × Option Statement) :=
  let effective := tree.population.map fun coefficient => lookup priors ⟨"b", coefficient, ""⟩
  match effective with
  | [] => []
  | first :: _ =>
    if effective.all fun prior => prior.text == first.text then
      [(⟨.slopes, none⟩, first.increment? Variable.slopes)]
    else (slopeEntries tree).map (plan priors)

/-- The parameters of a group with their statements. -/
def plannedOfGroup (group : Group) : List (ModelParameter × Option Statement) :=
  (deviationEntries group).map (plan priors) ++
    (⟨.standardized group.id, none⟩, some (standardNormal group)) ::
      (correlationEntries group).map (plan priors)

/-- The parameters of a model with their statements. -/
def planned : List (ModelParameter × Option Statement) :=
  plannedSlopes tree priors ++ (modelEntries tree).map (plan priors) ++
    tree.groups.flatMap (plannedOfGroup priors)

/-- The slopes are planned at once, with a prior of the text that all of them have, or one by one. -/
theorem plannedSlopes_cases :
    (∃ prior : Prior, tree.population ≠ [] ∧
      (∀ coefficient ∈ tree.population,
        (lookup priors ⟨"b", coefficient, ""⟩).text = prior.text) ∧
      plannedSlopes tree priors = [(⟨.slopes, none⟩, prior.increment? Variable.slopes)]) ∨
    plannedSlopes tree priors = (slopeEntries tree).map (plan priors) := by
  unfold plannedSlopes slopeEntries
  cases tree.population with
  | nil => exact .inr rfl
  | cons coefficient rest =>
    by_cases same : (((coefficient :: rest).map fun name => lookup priors ⟨"b", name, ""⟩).all
        fun prior => prior.text == (lookup priors ⟨"b", coefficient, ""⟩).text) = true
    · refine .inl ⟨lookup priors ⟨"b", coefficient, ""⟩, List.cons_ne_nil _ _, ?_, if_pos same⟩
      intro other mem
      exact eq_of_beq (List.all_eq_true.mp same _ (List.mem_map_of_mem mem))
    · exact .inr (if_neg same)

/-- A single planned parameter has the statement that is planned for it. -/
theorem filterMap_single (p : ModelParameter) (planned : Option Statement) :
    [(p, planned)].filterMap Prod.snd = planned.toList := by
  cases planned <;> rfl

/-- Planned entries have the statements of their priors. -/
theorem filterMap_plan (entries : List (ModelParameter × Slot)) :
    (entries.map (plan priors)).filterMap Prod.snd =
      entries.filterMap fun entry => (lookup priors entry.2).increment? entry.1.expr :=
  List.filterMap_map

/-- The statements of the slopes' priors are those that are planned. -/
theorem slopeStatements_eq : slopeStatements tree priors =
    (plannedSlopes tree priors).filterMap Prod.snd := by
  have each : ((tree.population.map fun coefficient => lookup priors ⟨"b", coefficient, ""⟩).zipIdx
      |>.filterMap fun entry => entry.1.increment? (Expr.element .slopes (Expr.ofNat (entry.2 + 1)))) =
      ((slopeEntries tree).map (plan priors)).filterMap Prod.snd := by
    rw [filterMap_plan, slopeEntries, List.zipIdx_map, List.filterMap_map, List.filterMap_map]
    rfl
  unfold slopeStatements plannedSlopes
  dsimp only
  generalize (tree.population.map fun coefficient => lookup priors ⟨"b", coefficient, ""⟩) =
    effective at each
  cases effective with
  | nil => rfl
  | cons first rest =>
    dsimp only
    by_cases same : ((first :: rest).all fun prior => prior.text == first.text) = true
    · rw [if_pos same, if_pos same, filterMap_single]
    · rw [if_neg same, if_neg same, ← each]

/-- The statements of the priors of a group are those that are planned. -/
theorem groupStatements_eq (group : Group) : groupStatements priors group =
    (plannedOfGroup priors group).filterMap Prod.snd := by
  have correlations : (if group.hasCorrelations then
      ((lookup priors ⟨"cor", "", group.factor⟩).increment?
        (Variable.correlationFactor group.id)).toList else []) =
      ((correlationEntries group).map (plan priors)).filterMap Prod.snd := by
    unfold correlationEntries
    split
    · exact (filterMap_single _ _).symm
    · rfl
  have deviations : (group.coefficients.zipIdx.filterMap fun entry =>
      (lookup priors ⟨"sd", entry.1, group.factor⟩).increment?
        (Expr.element (.deviations group.id) (Expr.ofNat (entry.2 + 1)))) =
      ((deviationEntries group).map (plan priors)).filterMap Prod.snd := by
    rw [filterMap_plan, deviationEntries, List.filterMap_map]
    rfl
  have standardized : ((⟨.standardized group.id, none⟩, some (standardNormal group)) ::
      (correlationEntries group).map (plan priors)).filterMap Prod.snd = standardNormal group ::
        ((correlationEntries group).map (plan priors)).filterMap Prod.snd :=
    List.filterMap_cons_some rfl
  rw [plannedOfGroup, List.filterMap_append, standardized, ← correlations, ← deviations]
  rfl

/-- The statements of the priors are those that are planned. -/
theorem statements_eq : statements tree priors = (planned tree priors).filterMap Prod.snd := by
  have intercept : (if tree.intercept then
      ((lookup priors ⟨"Intercept", "", ""⟩).increment? Variable.temporaryIntercept).toList else []) =
      ((if tree.intercept then [((⟨.temporaryIntercept, none⟩ : ModelParameter),
        (⟨"Intercept", "", ""⟩ : Slot))] else []).map (plan priors)).filterMap Prod.snd := by
    split
    · exact (filterMap_single _ _).symm
    · rfl
  have feedback : (if tree.autocorrelation.isSome then
      ((lookup priors ⟨"ar", "", ""⟩).increment? Variable.feedback).toList else []) =
      ((if tree.autocorrelation.isSome then [((⟨.feedback, none⟩ : ModelParameter),
        (⟨"ar", "", ""⟩ : Slot))] else []).map (plan priors)).filterMap Prod.snd := by
    split
    · exact (filterMap_single _ _).symm
    · rfl
  have auxiliaries : (tree.family.distribution.auxiliaries.flatMap fun parameter =>
      ((lookup priors ⟨parameter.name, "", ""⟩).increment? (Variable.auxiliary parameter)).toList) =
      ((tree.family.distribution.auxiliaries.map fun parameter =>
        ((⟨.auxiliary parameter, none⟩ : ModelParameter), (⟨parameter.name, "", ""⟩ : Slot))).map
          (plan priors)).filterMap Prod.snd := by
    rw [filterMap_plan, List.filterMap_map, List.filterMap_eq_flatMap_toList]
    rfl
  have groups : tree.groups.flatMap (groupStatements priors) =
      (tree.groups.flatMap (plannedOfGroup priors)).filterMap Prod.snd := by
    rw [List.filterMap_flatMap, ← funext (groupStatements_eq priors)]
  simp only [planned, modelEntries, List.filterMap_append, List.map_append, ← intercept, ← feedback,
    ← auxiliaries, ← groups, ← slopeStatements_eq]
  simp only [statements, List.append_assoc]

end Plan

section Once

/-- Whether a planned statement adds the log density of its parameter. -/
def IsFaithful (entry : ModelParameter × Option Statement) : Prop :=
  ∀ statement ∈ entry.2, statement.parameter? = some entry.1

variable {tree : TermTree} {priors : List Prior}

/-- The log density of a prior at a parameter is of that parameter. -/
theorem parameter?_density (prior : Prior) (p : ModelParameter) :
    (Statement.increment (prior.density p.expr)).parameter? = some p := by
  obtain ⟨holder, place⟩ := p
  unfold Prior.density
  dsimp only
  split <;> cases place <;> rfl

/-- The statement of a prior at a parameter is of that parameter. -/
theorem isFaithful_increment? (prior : Prior) (p : ModelParameter) :
    IsFaithful (p, prior.increment? p.expr) := by
  intro statement mem
  have here : prior.increment? p.expr = some statement := mem
  unfold Prior.increment? at here
  split at here
  · cases here
  · rw [← Option.some.inj here]
    exact parameter?_density prior p

variable (tree priors) in
/-- The planned statements add the log densities of their parameters. -/
theorem isFaithful_planned : ∀ entry ∈ planned tree priors, IsFaithful entry := by
  have each (entries : List (ModelParameter × Slot)) :
      ∀ entry ∈ entries.map (plan priors), IsFaithful entry := by
    intro _ mem
    obtain ⟨entry, _, rfl⟩ := List.mem_map.mp mem
    exact isFaithful_increment? _ entry.1
  have slopes : ∀ entry ∈ plannedSlopes tree priors, IsFaithful entry := by
    rcases plannedSlopes_cases tree priors with ⟨prior, _, _, whole⟩ | single
    · rw [whole, List.forall_mem_singleton]
      exact isFaithful_increment? prior ⟨.slopes, none⟩
    · exact single ▸ each _
  have group (group : Group) : ∀ entry ∈ plannedOfGroup priors group, IsFaithful entry := by
    refine List.forall_mem_append.mpr ⟨each _, List.forall_mem_cons.mpr ⟨?_, each _⟩⟩
    intro statement mem
    rw [← Option.some.inj mem]
    rfl
  refine List.forall_mem_append.mpr ⟨List.forall_mem_append.mpr ⟨slopes, each _⟩, ?_⟩
  intro entry mem
  obtain ⟨owner, _, mem⟩ := List.mem_flatMap.mp mem
  exact group owner entry mem

/-- A planned statement that is there adds what its parameter covers, and nothing else. -/
theorem filter_toList {entry : ModelParameter × Option Statement} (faithful : IsFaithful entry)
    (p : ModelParameter) : entry.2.toList.filter (fun s => s.Adds p) =
      if entry.1.Covers p then entry.2.toList else [] := by
  cases here : entry.2 with
  | none => simp
  | some statement =>
    have own : statement.Adds p ↔ entry.1.Covers p := by
      simp [Statement.Adds, faithful statement here]
    by_cases covers : entry.1.Covers p <;> simp [own, covers]

/-- Of statements of parameters that are apart, one alone adds a parameter. -/
theorem filter_adds {plans : List (ModelParameter × Option Statement)}
    (faithful : ∀ entry ∈ plans, IsFaithful entry)
    (apart : (plans.map Prod.fst).Pairwise ModelParameter.Apart) {p q : ModelParameter}
    {statement : Option Statement} (mem : (q, statement) ∈ plans) (covers : q.Covers p) :
    (plans.filterMap Prod.snd).filter (fun s => s.Adds p) = statement.toList := by
  have step (first : ModelParameter × Option Statement)
      (rest : List (ModelParameter × Option Statement)) :
      (first :: rest).filterMap Prod.snd = first.2.toList ++ rest.filterMap Prod.snd := by
    obtain ⟨r, planned⟩ := first
    cases planned <;> rfl
  have none (rest : List (ModelParameter × Option Statement))
      (faithful : ∀ entry ∈ rest, IsFaithful entry) (others : ∀ entry ∈ rest, ¬entry.1.Covers p) :
      (rest.filterMap Prod.snd).filter (fun s => s.Adds p) = [] := by
    induction rest with
    | nil => rfl
    | cons first rest ih =>
      rw [List.forall_mem_cons] at faithful others
      rw [step, List.filter_append, filter_toList faithful.1, if_neg others.1,
        ih faithful.2 others.2, List.append_nil]
  induction plans with
  | nil => cases mem
  | cons first rest ih =>
    rw [List.forall_mem_cons] at faithful
    rw [List.map_cons, List.pairwise_cons, List.forall_mem_map] at apart
    rw [step, List.filter_append, filter_toList faithful.1]
    rcases List.mem_cons.mp mem with rfl | later
    · rw [if_pos covers, none rest faithful.2 fun entry inside =>
        (apart.1 entry inside).not_covers covers, List.append_nil]
    · have other : first.1.Apart q := apart.1 (q, statement) later
      have free : ¬first.1.Covers p := ModelParameter.Apart.not_covers ⟨other.2, other.1⟩ covers
      rw [if_neg free, ih faithful.2 apart.2 later, List.nil_append]

/-- Elements of one variable at the places of a list are apart. -/
theorem apart_elements (v : Variable) (names : List String) :
    (names.zipIdx.map fun entry =>
      (⟨v, some (Expr.ofNat (entry.2 + 1))⟩ : ModelParameter)).Pairwise ModelParameter.Apart := by
  have places : names.zipIdx.Pairwise fun first second => first.2 ≠ second.2 := by
    rw [← List.pairwise_map (f := Prod.snd), List.zipIdx_map_snd]
    exact List.nodup_range'
  rw [List.pairwise_map]
  exact places.imp fun differ => ModelParameter.apart_of_place fun same => differ (by omega)

/-- Parameters that are apart in two parts, and hold to different variables, are apart. -/
theorem apart_append {first second : List ModelParameter}
    (one : first.Pairwise ModelParameter.Apart) (two : second.Pairwise ModelParameter.Apart)
    (differ : ∀ p ∈ first, ∀ q ∈ second, p.holder ≠ q.holder) :
    (first ++ second).Pairwise ModelParameter.Apart :=
  List.pairwise_append.mpr ⟨one, two, fun p left q right =>
    ModelParameter.apart_of_holder (differ p left q right)⟩

/-- Planning keeps the parameters. -/
theorem map_fst_plan (entries : List (ModelParameter × Slot)) :
    (entries.map (plan priors)).map Prod.fst = entries.map Prod.fst := by
  rw [List.map_map]
  rfl

variable (tree priors) in
/-- The slopes are apart and hold to one variable. -/
theorem apart_plannedSlopes :
    ((plannedSlopes tree priors).map Prod.fst).Pairwise ModelParameter.Apart ∧
      ∀ p ∈ (plannedSlopes tree priors).map Prod.fst, p.holder = .slopes := by
  rcases plannedSlopes_cases tree priors with ⟨prior, _, _, whole⟩ | single
  · simp [whole]
  · have each : (plannedSlopes tree priors).map Prod.fst =
        tree.population.zipIdx.map fun entry => ⟨.slopes, some (Expr.ofNat (entry.2 + 1))⟩ := by
      rw [single, map_fst_plan, slopeEntries, List.map_map]
      rfl
    rw [each]
    exact ⟨apart_elements _ _, List.forall_mem_map.mpr fun _ _ => rfl⟩

/-- The parameters that are variables of the whole model are some of those that there may be. -/
theorem modelEntries_sublist : ((modelEntries tree).map Prod.fst).Sublist
    ([Variable.temporaryIntercept, .auxiliary .sigma, .auxiliary .nu, .auxiliary .shape,
      .feedback].map fun v => ⟨v, none⟩) := by
  have intercept : ((if tree.intercept then [((⟨.temporaryIntercept, none⟩ : ModelParameter),
      (⟨"Intercept", "", ""⟩ : Slot))] else []).map Prod.fst).Sublist
        [⟨.temporaryIntercept, none⟩] := by
    split
    · exact List.Sublist.refl _
    · exact List.nil_sublist _
  have feedback : ((if tree.autocorrelation.isSome then [((⟨.feedback, none⟩ : ModelParameter),
      (⟨"ar", "", ""⟩ : Slot))] else []).map Prod.fst).Sublist [⟨.feedback, none⟩] := by
    split
    · exact List.Sublist.refl _
    · exact List.nil_sublist _
  have auxiliaries := (Program.auxiliaries_sublist tree.family.distribution).map
    fun parameter => (⟨.auxiliary parameter, none⟩ : ModelParameter)
  rw [modelEntries, List.map_append, List.map_append, List.map_map]
  exact (intercept.append auxiliaries).append feedback

/-- The parameters of a group are apart and belong to the group. -/
theorem apart_plannedOfGroup (group : Group) :
    ((plannedOfGroup priors group).map Prod.fst).Pairwise ModelParameter.Apart ∧
      ∀ p ∈ (plannedOfGroup priors group).map Prod.fst, p.holder.owner = .group group.id := by
  have split : (plannedOfGroup priors group).map Prod.fst =
      (group.coefficients.zipIdx.map fun entry =>
        ⟨.deviations group.id, some (Expr.ofNat (entry.2 + 1))⟩) ++
      (⟨.standardized group.id, none⟩ ::
        if group.hasCorrelations then [⟨.correlationFactor group.id, none⟩] else []) := by
    rw [plannedOfGroup, List.map_append, List.map_cons, map_fst_plan, map_fst_plan,
      deviationEntries, List.map_map, correlationEntries, apply_ite (List.map Prod.fst)]
    rfl
  rw [split]
  constructor
  · refine apart_append (apart_elements _ _) ?_ ?_
    · split <;> simp [ModelParameter.Apart, ModelParameter.Covers]
    · rw [List.forall_mem_map]
      split <;> simp
  · rw [List.forall_mem_append, List.forall_mem_map]
    split <;> simp [Variable.owner]

/-- The parameters of the whole model are variables of the model other than the slopes. -/
theorem holder_of_mem_modelEntries {p : ModelParameter}
    (mem : p ∈ (modelEntries tree).map Prod.fst) : p.holder ≠ .slopes ∧ p.holder.owner = .model := by
  have fixed : ∀ p ∈ [Variable.temporaryIntercept, .auxiliary .sigma, .auxiliary .nu,
      .auxiliary .shape, .feedback].map (fun v => (⟨v, none⟩ : ModelParameter)),
      p.holder ≠ .slopes ∧ p.holder.owner = .model := by decide
  exact fixed p (modelEntries_sublist.subset mem)

/-- The parameters of the groups are not variables of the model. -/
theorem owner_of_mem_groups {p : ModelParameter}
    (mem : p ∈ (tree.groups.flatMap (plannedOfGroup priors)).map Prod.fst) :
    p.holder.owner ≠ .model := by
  rw [List.map_flatMap, List.mem_flatMap] at mem
  obtain ⟨group, _, mem⟩ := mem
  rw [(apart_plannedOfGroup group).2 p mem]
  simp

variable (priors) in
/-- The planned parameters are apart. -/
theorem apart_planned (distinct : (tree.groups.map Group.id).Nodup) :
    ((planned tree priors).map Prod.fst).Pairwise ModelParameter.Apart := by
  obtain ⟨slopes, held⟩ := apart_plannedSlopes tree priors
  have groups : ((tree.groups.flatMap (plannedOfGroup priors)).map Prod.fst).Pairwise
      ModelParameter.Apart := by
    rw [List.map_flatMap, List.pairwise_flatMap]
    refine ⟨fun group _ => (apart_plannedOfGroup group).1, ?_⟩
    refine (List.pairwise_map.mp distinct).imp fun {one two} differ p left q right => ?_
    refine ModelParameter.apart_of_holder fun same => differ ?_
    have first := (apart_plannedOfGroup one).2 p left
    have second := (apart_plannedOfGroup two).2 q right
    rw [same, second] at first
    exact (Owner.group.inj first).symm
  rw [planned, List.map_append, List.map_append, map_fst_plan]
  refine apart_append (apart_append slopes ?_ ?_) groups ?_
  · exact List.Pairwise.sublist modelEntries_sublist (by decide)
  · intro p left q right
    rw [held p left]
    exact (holder_of_mem_modelEntries right).1.symm
  · intro p left q right same
    refine owner_of_mem_groups right ?_
    rw [← same]
    rcases List.mem_append.mp left with slope | other
    · rw [held p slope]
      rfl
    · exact (holder_of_mem_modelEntries other).2

/-- What is planned for the slopes is planned among them. -/
theorem mem_plannedSlopes {entry : ModelParameter × Option Statement}
    (mem : entry ∈ planned tree priors) (slope : entry.1.holder = .slopes) :
    entry ∈ plannedSlopes tree priors := by
  rcases List.mem_append.mp mem with mem | group
  · rcases List.mem_append.mp mem with own | model
    · exact own
    · have listed := List.mem_map_of_mem (f := Prod.fst) model
      rw [map_fst_plan] at listed
      exact absurd slope (holder_of_mem_modelEntries listed).1
  · have other := owner_of_mem_groups (List.mem_map_of_mem (f := Prod.fst) group)
    rw [slope] at other
    exact absurd rfl other

end Once

section Effective

variable {tree : TermTree} {given priors : List Prior}

/-- A group is one of those of its factor, and its factor is one of the model's. -/
theorem mem_groupsOf {group : Group} (mem : group ∈ tree.groups) :
    group.factor ∈ tree.factors ∧ group ∈ tree.groupsOf group.factor :=
  ⟨List.mem_eraseDups.mpr (List.mem_map_of_mem mem), List.mem_filter.mpr ⟨mem, by simp⟩⟩

/-- The slots of the parameters are slots of the model. -/
theorem mem_slots_of_mem_entries {entry : ModelParameter × Slot} (mem : entry ∈ entries tree) :
    entry.2 ∈ slots tree := by
  simp only [entries, List.mem_append, List.mem_flatMap] at mem
  rcases mem with (slope | model) | ⟨group, inside, deviation | correlation⟩
  · obtain ⟨⟨coefficient, k⟩, place, rfl⟩ := List.mem_map.mp slope
    exact mem_slots_of_mem_population (List.fst_mem_of_mem_zipIdx place)
  all_goals simp only [slots, List.mem_append]
  · simp only [modelEntries, List.mem_append] at model
    rcases model with (intercept | auxiliary) | feedback
    · split at intercept
      · obtain rfl := List.mem_singleton.mp intercept
        rename_i given
        simp [given]
      · cases intercept
    · obtain ⟨parameter, own, rfl⟩ := List.mem_map.mp auxiliary
      refine .inr (List.mem_map.mpr ⟨parameter.name, ?_, rfl⟩)
      exact List.mem_append_left _ (List.mem_map_of_mem own)
    · split at feedback
      · obtain rfl := List.mem_singleton.mp feedback
        rename_i structured
        refine .inr (List.mem_map.mpr ⟨"ar", ?_, rfl⟩)
        simp [TermTree.auxiliaries, structured]
      · cases feedback
  · obtain ⟨⟨coefficient, k⟩, place, rfl⟩ := List.mem_map.mp deviation
    have own := List.fst_mem_of_mem_zipIdx place
    have some : tree.groups ≠ [] := List.ne_nil_of_mem inside
    obtain ⟨factor, listed⟩ := mem_groupsOf inside
    refine .inl (.inl (.inr ?_))
    simp only [deviationSlots, List.isEmpty_iff, some, ↓reduceIte, List.mem_cons, List.mem_flatMap,
      List.mem_map]
    exact .inr ⟨group.factor, factor, .inr ⟨group, listed, coefficient, own, rfl⟩⟩
  · unfold correlationEntries at correlation
    split at correlation
    · obtain rfl := List.mem_singleton.mp correlation
      rename_i correlated
      obtain ⟨factor, listed⟩ := mem_groupsOf inside
      have any : (tree.groupsOf group.factor).any Group.hasCorrelations = true :=
        List.any_eq_true.mpr ⟨group, listed, correlated⟩
      have some : tree.groups.any Group.hasCorrelations = true :=
        List.any_eq_true.mpr ⟨group, inside, correlated⟩
      refine .inl (.inr ?_)
      rw [correlationSlots, if_pos some]
      refine List.mem_cons_of_mem _ (List.mem_filterMap.mpr ⟨group.factor, factor, ?_⟩)
      rw [if_pos any]
    · cases correlation

variable (priors) in
/-- Each parameter is covered by a planned one, with a statement of a prior that has the text of the
one that is looked up. -/
theorem exists_planned {entry : ModelParameter × Slot} (mem : entry ∈ entries tree) :
    ∃ (target : ModelParameter) (prior : Prior),
      (target = entry.1 ∨ target = ⟨.slopes, none⟩ ∧ entry.1.holder = .slopes) ∧
      target.Covers entry.1 ∧ (target, prior.increment? target.expr) ∈ planned tree priors ∧
      prior.text = (lookup priors entry.2).text := by
  simp only [entries, List.mem_append, List.mem_flatMap] at mem
  rcases mem with (slope | model) | ⟨group, inside, own⟩
  · have planned (step : ModelParameter × Option Statement) (mem : step ∈ plannedSlopes tree priors) :
        step ∈ planned tree priors := List.mem_append_left _ (List.mem_append_left _ mem)
    rcases plannedSlopes_cases tree priors with ⟨prior, _, same, whole⟩ | single
    · obtain ⟨⟨coefficient, k⟩, place, rfl⟩ := List.mem_map.mp slope
      refine ⟨⟨.slopes, none⟩, prior, .inr ⟨rfl, rfl⟩, ⟨rfl, .inl rfl⟩, planned _ ?_, ?_⟩
      · exact whole ▸ List.mem_singleton_self _
      · exact (same coefficient (List.fst_mem_of_mem_zipIdx place)).symm
    · refine ⟨entry.1, lookup priors entry.2, .inl rfl, entry.1.covers_self, planned _ ?_, rfl⟩
      exact single ▸ List.mem_map_of_mem slope
  · refine ⟨entry.1, lookup priors entry.2, .inl rfl, entry.1.covers_self, ?_, rfl⟩
    exact List.mem_append_left _ (List.mem_append_right _ (List.mem_map_of_mem model))
  · refine ⟨entry.1, lookup priors entry.2, .inl rfl, entry.1.covers_self, ?_, rfl⟩
    refine List.mem_append_right _ (List.mem_flatMap.mpr ⟨group, inside, ?_⟩)
    rcases own with deviation | correlation
    · exact List.mem_append_left _ (List.mem_map_of_mem deviation)
    · exact List.mem_append_right _ (List.mem_cons_of_mem _ (List.mem_map_of_mem correlation))

/-- What is planned is planned for a parameter with a slot, or for standardized effects. -/
theorem covers_of_mem_planned {entry : ModelParameter × Option Statement}
    (mem : entry ∈ planned tree priors) :
    (∃ own ∈ entries tree, entry.1.Covers own.1) ∨
      ∃ group ∈ tree.groups, entry.2 = some (standardNormal group) := by
  have plans {part : List (ModelParameter × Slot)} (inside : part ⊆ entries tree)
      (mem : entry ∈ part.map (plan priors)) : ∃ own ∈ entries tree, entry.1.Covers own.1 := by
    obtain ⟨own, listed, rfl⟩ := List.mem_map.mp mem
    exact ⟨own, inside listed, ModelParameter.covers_self _⟩
  have slopes : slopeEntries tree ⊆ entries tree := fun own listed =>
    List.mem_append_left _ (List.mem_append_left _ listed)
  rcases List.mem_append.mp mem with mem | mem
  · rcases List.mem_append.mp mem with slope | model
    · rcases plannedSlopes_cases tree priors with ⟨prior, nonempty, _, whole⟩ | single
      · obtain ⟨coefficient, rest, population⟩ := List.exists_cons_of_ne_nil nonempty
        have first : (⟨.slopes, some (Expr.ofNat 1)⟩, ⟨"b", coefficient, ""⟩) ∈
            slopeEntries tree := by
          simp [slopeEntries, population]
        rw [whole, List.mem_singleton] at slope
        exact .inl ⟨_, slopes first, slope ▸ ⟨rfl, .inl rfl⟩⟩
      · exact .inl (plans slopes (single ▸ slope))
    · exact .inl (plans (fun own listed =>
        List.mem_append_left _ (List.mem_append_right _ listed)) model)
  · obtain ⟨group, inside, mem⟩ := List.mem_flatMap.mp mem
    have own : deviationEntries group ++ correlationEntries group ⊆ entries tree :=
      fun own listed => List.mem_append_right _ (List.mem_flatMap.mpr ⟨group, inside, listed⟩)
    rcases List.mem_append.mp mem with deviation | mem
    · exact .inl (plans (List.append_subset.mp own).1 deviation)
    · rcases List.mem_cons.mp mem with rfl | correlation
      · exact .inr ⟨group, inside, rfl⟩
      · exact .inl (plans (List.append_subset.mp own).2 correlation)

/-- The statement of a prior that is a call adds the density of the call. -/
theorem increment?_of_call {prior : Prior} {call : DistributionCall} (filled : prior.text ≠ "")
    (spelled : prior.call? = some call) (parameter : Expr) :
    prior.increment? parameter = some (.increment (call.density parameter)) := by
  have name : prior.distribution = call.name := by rw [Prior.distribution, spelled]
  have arguments : prior.arguments = call.arguments := by rw [Prior.arguments, spelled]
  rw [Prior.increment?, if_neg (by simpa using filled), Prior.density, DistributionCall.density, name,
    arguments]

end Effective

/-- Whether statements add the priors in effect for the parameters of a model. -/
structure AddsEach (tree : TermTree) (given : List Prior) (statements : List Statement) : Prop where
  /-- A prior in effect is added once, to its parameter alone or to all slopes at once. -/
  once : ∀ entry ∈ entries tree, ∀ prior, effective given entry.2 = some prior →
    ∃ call target, prior.call? = some call ∧
      (target = entry.1 ∨ target = ⟨.slopes, none⟩ ∧ entry.1.holder = .slopes) ∧
      statements.filter (fun s => s.Adds entry.1) = [.increment (call.density target.expr)]
  /-- Without a prior in effect nothing is added. -/
  never : ∀ entry ∈ entries tree, effective given entry.2 = none →
    statements.filter (fun s => s.Adds entry.1) = []
  /-- A density of all slopes stands for priors with one text. -/
  shared : ∀ statement ∈ statements, statement.parameter? = some ⟨.slopes, none⟩ →
    ∀ first ∈ tree.population, ∀ second ∈ tree.population,
      (effective given ⟨"b", first, ""⟩).map Prior.text =
        (effective given ⟨"b", second, ""⟩).map Prior.text
  /-- The standardized effects of a group are standard normal. -/
  normal : ∀ group ∈ tree.groups,
    statements.filter (fun s => s.Adds ⟨.standardized group.id, none⟩) = [standardNormal group]
  /-- Nothing else is added. -/
  only : ∀ statement ∈ statements, (∃ entry ∈ entries tree, statement.Adds entry.1) ∨
    ∃ group ∈ tree.groups, statement = standardNormal group

/-- Each parameter of a model gets the prior in effect for it exactly once, and nothing else is
added. -/
theorem adds_each_once {formula : Formula} {family : Family}
    {autocorrelation : Option Autocorrelation} {frame : Frame} {covariances : List String}
    {tree : TermTree}
    (built : TermTree.build formula family autocorrelation frame covariances = .ok tree)
    {given priors : List Prior} {sample : SamplePrior}
    (checked : ∀ prior ∈ given, ∃ text slot, Prior.set text slot = .ok prior)
    (accepted : merge tree given sample = .ok priors) :
    AddsEach tree given (statements tree priors) := by
  obtain ⟨-, -, groups⟩ := TermTree.build_eq_ok built
  have distinct : (tree.groups.map Group.id).Nodup := groups.ids ▸ List.nodup_range'
  have apart := apart_planned priors distinct
  have faithful := isFaithful_planned tree priors
  rw [statements_eq]
  constructor
  case once =>
    intro entry mem prior found
    obtain ⟨call, spelled⟩ := exists_call checked found
    obtain ⟨target, other, own, covers, planned, text⟩ := exists_planned priors mem
    rw [lookup_merge accepted (mem_slots_of_mem_entries mem), found, Option.getD_some] at text
    have filled : other.text ≠ "" := by
      rw [text]
      exact text_ne_of_effective found
    have same : other.call? = some call := by
      rw [← spelled, Prior.call?, Prior.call?, text]
    refine ⟨call, target, spelled, own, ?_⟩
    rw [filter_adds faithful apart planned covers, increment?_of_call filled same, Option.toList_some]
  case never =>
    intro entry mem none
    obtain ⟨target, other, own, covers, planned, text⟩ := exists_planned priors mem
    rw [lookup_merge accepted (mem_slots_of_mem_entries mem), none, Option.getD_none] at text
    rw [filter_adds faithful apart planned covers, Prior.increment?, text]
    rfl
  case shared =>
    intro statement mem whole first left second right
    obtain ⟨entry, mem, here⟩ := List.mem_filterMap.mp mem
    have own : entry.1 = ⟨.slopes, none⟩ :=
      Option.some.inj ((faithful entry mem statement here).symm.trans whole)
    have slope := mem_plannedSlopes mem (own ▸ rfl)
    rcases plannedSlopes_cases tree priors with ⟨prior, _, same, _⟩ | single
    · have text (coefficient : String) (mem : coefficient ∈ tree.population) :
          (effective given ⟨"b", coefficient, ""⟩).map Prior.text =
            if prior.text = "" then none else some prior.text := by
        rw [← same coefficient mem]
        exact map_text_effective accepted (mem_slots_of_mem_population mem)
      rw [text first left, text second right]
    · rw [single] at slope
      obtain ⟨other, listed, rfl⟩ := List.mem_map.mp slope
      obtain ⟨⟨coefficient, k⟩, _, rfl⟩ := List.mem_map.mp listed
      cases own
  case normal =>
    intro group mem
    have planned : (⟨.standardized group.id, none⟩, some (standardNormal group)) ∈
        planned tree priors :=
      List.mem_append_right _ (List.mem_flatMap.mpr
        ⟨group, mem, List.mem_append_right _ List.mem_cons_self⟩)
    exact filter_adds faithful apart planned (ModelParameter.covers_self _)
  case only =>
    intro statement mem
    obtain ⟨entry, mem, here⟩ := List.mem_filterMap.mp mem
    rcases covers_of_mem_planned mem with ⟨own, listed, covers⟩ | ⟨group, inside, normal⟩
    · exact .inl ⟨own, listed, entry.1, faithful entry mem statement here, covers⟩
    · exact .inr ⟨group, inside, Option.some.inj (here.symm.trans normal)⟩

/-- A small formula with two slopes, one of which varies with a group. -/
def sampleFormula : Formula :=
  ⟨"y", none, true, [⟨["x"]⟩, ⟨["w"]⟩], [⟨"g", true, [⟨["x"]⟩], true⟩]⟩

/-- A small table for it. -/
def sampleTable : Frame := ⟨3, [("y", .int #[2, 3, 5].toVector), ("x", .int #[0, 1, 4].toVector),
  ("w", .int #[1, 0, 2].toVector), ("g", .factor ["a", "b"] #[some 0, some 1, some 0].toVector)]⟩

/-- A prior for one of the slopes and one for the standard deviations of the group. -/
def samplePriors : List Prior :=
  [⟨"normal(0, 1)", ⟨"b", "x", ""⟩⟩, ⟨"cauchy(0, 2)", ⟨"sd", "", "g"⟩⟩]

/-- The small model gets each of its priors once. -/
theorem sample_adds_each : ∃ tree priors,
    TermTree.build sampleFormula .gaussian none sampleTable [] = .ok tree ∧
    (∀ prior ∈ samplePriors, ∃ text slot, Prior.set text slot = .ok prior) ∧
    merge tree samplePriors .no = .ok priors ∧
    AddsEach tree samplePriors (statements tree priors) := by
  obtain ⟨tree, built, placed⟩ := exists_of_any
    (TermTree.build sampleFormula .gaussian none sampleTable [])
    (fun tree => (merge tree samplePriors .no).isOk) (by decide +kernel)
  obtain ⟨priors, accepted⟩ := exists_of_isOk placed
  have checked : ∀ prior ∈ samplePriors, ∃ text slot, Prior.set text slot = .ok prior := by
    refine List.forall_mem_cons.mpr ⟨⟨"normal(0, 1)", ⟨"b", "x", ""⟩, rfl⟩, ?_⟩
    exact List.forall_mem_singleton.mpr ⟨"cauchy(0, 2)", ⟨"sd", "", "g"⟩, rfl⟩
  exact ⟨tree, priors, built, checked, accepted, adds_each_once built checked accepted⟩

end Priors

end Multilevel
