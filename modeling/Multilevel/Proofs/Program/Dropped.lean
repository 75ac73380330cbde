import Multilevel.Draws.Posterior
import Multilevel.Proofs.Program.Declared

/-!
# Variables that are dropped

The names that are dropped from the output are listed by the terms of a model, its program is written
apart from that list, and draws are matched with the list by name, where a name that no variable has
does nothing. The names are those of different variables (`TermTree.nodup_dropped`), the program
declares each of them (`Specification.mem_drawn_of_mem_dropped`), and the declared variables that
stay are those of an explicit list (`Specification.filter_drawn`).
-/
namespace Multilevel

/-- Whether a variable is of a kind that may be dropped. -/
def Variable.isDroppable : Variable → Bool
  | temporaryIntercept | effects _ | standardized _ | correlationFactor _ | effect _ _ => true
  | _ => false

namespace Group

/-- The single effects of a group. -/
def singleEffects (group : Group) : List Variable :=
  (List.range group.size).map fun k => .effect group.id (k + 1)

/-- The Cholesky factor of a group's correlations, if they are estimated. -/
def choleskyFactor (group : Group) : List Variable :=
  if group.hasCorrelations then [.correlationFactor group.id] else []

/-- The correlations of a group, if they are estimated. -/
def correlationMatrix (group : Group) : List Variable :=
  if group.hasCorrelations then [.correlations group.id] else []

end Group

namespace TermTree

/-- The variables of a group that are dropped. -/
def droppedOfGroup (keepEffects keepInternal : Bool) (group : Group) : List Variable :=
  .effects group.id ::
    (if keepInternal then [] else .standardized group.id :: group.choleskyFactor) ++
    (if keepEffects then [] else group.singleEffects)

/-- The variables that are dropped. -/
def dropped (tree : TermTree) (keepEffects keepInternal : Bool) : List Variable :=
  (if tree.intercept then [.temporaryIntercept] else []) ++
    tree.groups.flatMap (droppedOfGroup keepEffects keepInternal)

variable {tree : TermTree} {keepEffects keepInternal : Bool}

/-- The names that are dropped are those of the variables that are dropped. -/
theorem excluded_eq (tree : TermTree) (keepEffects keepInternal : Bool) :
    tree.excluded keepEffects keepInternal =
      (tree.dropped keepEffects keepInternal).map Variable.name := by
  have ofGroup (group : Group) : excludedOfGroup keepEffects keepInternal group =
      (droppedOfGroup keepEffects keepInternal group).map Variable.name := by
    unfold excludedOfGroup droppedOfGroup Group.choleskyFactor Group.singleEffects
    cases keepEffects <;> cases keepInternal <;> cases group.hasCorrelations <;>
      simp [Variable.name]
  rw [excluded, dropped, List.map_append, List.map_flatMap]
  congr 1
  · split <;> rfl
  · exact List.flatMap_congr fun group _ => ofGroup group

/-- A variable is dropped exactly if its name is. -/
theorem name_mem_excluded {v : Variable} : v.name ∈ tree.excluded keepEffects keepInternal ↔
    v ∈ tree.dropped keepEffects keepInternal := by
  rw [excluded_eq, List.mem_map_of_injective Variable.name_injective]

/-- The variables of a group that are dropped are different; they belong to the group and are of the
kinds that may be dropped. -/
theorem droppedOfGroup_spec (keepEffects keepInternal : Bool) (group : Group) :
    (droppedOfGroup keepEffects keepInternal group).Nodup ∧
      ∀ v ∈ droppedOfGroup keepEffects keepInternal group,
        v.owner = .group group.id ∧ v.isDroppable = true := by
  have effects : ((List.range group.size).map fun k =>
      Variable.effect group.id (k + 1)).Nodup :=
    List.nodup_range.map fun first second same => by simpa using same
  unfold droppedOfGroup Group.choleskyFactor Group.singleEffects
  cases keepEffects <;> cases keepInternal <;> cases group.hasCorrelations <;>
    simp [effects, Variable.owner, Variable.isDroppable]

/-- The variables that are dropped are different if the groups have different numbers. -/
theorem nodup_dropped (distinct : (tree.groups.map Group.id).Nodup)
    (keepEffects keepInternal : Bool) : (tree.dropped keepEffects keepInternal).Nodup := by
  have groups : (tree.groups.flatMap (droppedOfGroup keepEffects keepInternal)).Nodup := by
    refine List.nodup_flatMap.mpr ⟨fun group _ => (droppedOfGroup_spec _ _ group).1, ?_⟩
    rw [List.nodup_iff_pairwise_ne, List.pairwise_map] at distinct
    refine distinct.imp fun {first second} differ v here there => differ ?_
    have one := ((droppedOfGroup_spec keepEffects keepInternal first).2 v here).1
    have two := ((droppedOfGroup_spec keepEffects keepInternal second).2 v there).1
    exact Owner.group.inj (one.symm.trans two)
  refine List.nodup_append'.mpr ⟨by split <;> simp, groups, fun v shared own => ?_⟩
  obtain ⟨group, _, here⟩ := List.mem_flatMap.mp own
  split at shared
  · obtain rfl := List.mem_singleton.mp shared
    exact nomatch ((droppedOfGroup_spec keepEffects keepInternal group).2 _ here).1
  · cases shared

/-- A variable that is dropped is of a kind that may be. -/
theorem isDroppable_of_mem_dropped {v : Variable}
    (mem : v ∈ tree.dropped keepEffects keepInternal) : v.isDroppable = true := by
  rcases List.mem_append.mp mem with shared | own
  · split at shared
    · rw [List.mem_singleton.mp shared]
      rfl
    · cases shared
  · obtain ⟨group, _, here⟩ := List.mem_flatMap.mp own
    exact ((droppedOfGroup_spec keepEffects keepInternal group).2 v here).2

/-- The intercept of the centered design is dropped if there is one. -/
theorem temporaryIntercept_mem_dropped : .temporaryIntercept ∈ tree.dropped keepEffects keepInternal ↔
    tree.intercept = true := by
  have other : Variable.temporaryIntercept ∉
      tree.groups.flatMap (droppedOfGroup keepEffects keepInternal) := by
    intro mem
    obtain ⟨group, _, here⟩ := List.mem_flatMap.mp mem
    exact nomatch ((droppedOfGroup_spec keepEffects keepInternal group).2 _ here).1
  rw [dropped, List.mem_append, or_iff_left other]
  split <;> simp_all

/-- A variable of a group is dropped if it is one of those that the group drops. -/
theorem mem_dropped_iff (distinct : (tree.groups.map Group.id).Nodup) {group : Group}
    (inside : group ∈ tree.groups) {v : Variable} (own : v.owner = .group group.id) :
    v ∈ tree.dropped keepEffects keepInternal ↔
      v ∈ droppedOfGroup keepEffects keepInternal group := by
  rw [dropped, List.mem_append, List.mem_flatMap]
  constructor
  · rintro (shared | ⟨other, there, here⟩)
    · split at shared
      · rw [List.mem_singleton.mp shared] at own
        cases own
      · cases shared
    · have number := ((droppedOfGroup_spec _ _ other).2 v here).1.symm.trans own
      rwa [List.inj_on_of_nodup_map distinct there inside (Owner.group.inj number)] at here
  · exact fun here => .inr ⟨group, inside, here⟩

end TermTree

namespace Program

/-- The variables that a program declares for each draw. -/
def drawn (p : Program) : List Variable :=
  (p.parameters ++ p.transformedParameters ++ p.generatedQuantities).flatMap Statement.declared

/-- The draws from the priors that a program makes. -/
def priorDraws (s : Specification) : List PriorDraw :=
  if s.samplePrior = .yes then Priors.draws s.terms s.priors else []

/-- The variables of each draw, in the order of the program. -/
theorem drawn_eq (s : Specification) : (ofSpecification s).drawn =
    (if s.hasSlopes then [Variable.slopes] else []) ++
      (if s.terms.intercept then [Variable.temporaryIntercept] else []) ++
      s.family.distribution.auxiliaries.map Variable.auxiliary ++
      (if s.autocorrelation.isSome then [Variable.feedback] else []) ++
      (s.terms.groups.flatMap fun group =>
        .deviations group.id :: .standardized group.id :: group.choleskyFactor) ++
      (s.terms.groups.flatMap fun group => .effects group.id :: group.singleEffects) ++
      (if s.terms.intercept then [Variable.intercept] else []) ++
      s.terms.groups.flatMap Group.correlationMatrix ++
      (priorDraws s).map PriorDraw.target := by
  have parameters : (parametersBlock s).flatMap Statement.declared =
      (if s.hasSlopes then [Variable.slopes] else []) ++
        (if s.terms.intercept then [Variable.temporaryIntercept] else []) ++
        s.family.distribution.auxiliaries.map Variable.auxiliary ++
        (if s.autocorrelation.isSome then [Variable.feedback] else []) ++
        s.terms.groups.flatMap fun group =>
          .deviations group.id :: .standardized group.id :: group.choleskyFactor := by
    simp only [parametersBlock, List.flatMap_append, List.flatMap_assoc, List.flatMap_map]
    congr 1
    · congr 1
      · congr 1
        · congr 1 <;> split <;> rfl
        · exact List.map_eq_flatMap.symm
      · split <;> rfl
    · refine List.flatMap_congr fun group _ => ?_
      unfold groupParameters Group.choleskyFactor
      split <;> rfl
  have effects : (transformedParametersBlock s).flatMap Statement.declared =
      s.terms.groups.flatMap fun group => .effects group.id :: group.singleEffects := by
    rw [transformedParametersBlock, List.flatMap_append, declared_effectStatements, List.append_nil,
      List.flatMap_assoc]
    refine List.flatMap_congr fun group _ => ?_
    rw [effectDeclarations, columnDeclarations, List.flatMap_cons, List.flatMap_map,
      Group.singleEffects, List.map_eq_flatMap]
    rfl
  have quantities : (generatedQuantitiesBlock s).flatMap Statement.declared =
      (if s.terms.intercept then [Variable.intercept] else []) ++
        s.terms.groups.flatMap Group.correlationMatrix ++ (priorDraws s).map PriorDraw.target := by
    have parts : generatedQuantitiesBlock s = interceptQuantity s ++ correlationQuantities s ++
        (priorDraws s).map PriorDraw.declaration ++ (priorDraws s).filterMap PriorDraw.redraw? := rfl
    rw [parts, List.flatMap_append, declared_redraws, List.append_nil, List.flatMap_append,
      declared_draws, List.flatMap_append, correlationQuantities, List.flatMap_assoc]
    congr 2
    · unfold interceptQuantity
      split <;> [split; skip] <;> rfl
    · refine List.flatMap_congr fun group _ => ?_
      unfold Group.correlationMatrix
      split <;> rfl
  simp only [drawn, ofSpecification, List.flatMap_append, parameters, effects, quantities,
    List.append_assoc]

end Program

namespace Specification

/-- The variables of each draw that remain, in the order of the program. -/
def remaining (s : Specification) (keepEffects keepInternal : Bool) : List Variable :=
  (if s.hasSlopes then [Variable.slopes] else []) ++
    s.family.distribution.auxiliaries.map Variable.auxiliary ++
    (if s.autocorrelation.isSome then [Variable.feedback] else []) ++
    (s.terms.groups.flatMap fun group => .deviations group.id ::
      if keepInternal then .standardized group.id :: group.choleskyFactor else []) ++
    (s.terms.groups.flatMap fun group => if keepEffects then group.singleEffects else []) ++
    (if s.terms.intercept then [Variable.intercept] else []) ++
    s.terms.groups.flatMap Group.correlationMatrix ++
    (Program.priorDraws s).map PriorDraw.target

variable {s : Specification} {keepEffects keepInternal : Bool}

/-- Variables of kinds that are never dropped stay. -/
theorem filter_of_kinds {vs : List Variable} (kinds : ∀ v ∈ vs, v.isDroppable = false) :
    (vs.filter fun v => v.name ∉ s.terms.excluded keepEffects keepInternal) = vs := by
  refine List.filter_eq_self.mpr fun v mem => decide_eq_true fun dropped => ?_
  have kind := TermTree.isDroppable_of_mem_dropped (TermTree.name_mem_excluded.mp dropped)
  exact Bool.noConfusion ((kinds v mem).symm.trans kind)

/-- A variable of a group stays unless it is one of those that the group drops. -/
theorem filter_ofGroup (distinct : (s.terms.groups.map Group.id).Nodup) {group : Group}
    (inside : group ∈ s.terms.groups) {vs : List Variable}
    (owned : ∀ v ∈ vs, v.owner = .group group.id) :
    (vs.filter fun v => v.name ∉ s.terms.excluded keepEffects keepInternal) =
      vs.filter fun v => v ∉ TermTree.droppedOfGroup keepEffects keepInternal group := by
  refine List.filter_congr fun v mem => ?_
  rw [decide_eq_decide, TermTree.name_mem_excluded,
    TermTree.mem_dropped_iff distinct inside (owned v mem)]

/-- The parameters of a group that stay. -/
theorem filter_groupParameters (distinct : (s.terms.groups.map Group.id).Nodup) {group : Group}
    (inside : group ∈ s.terms.groups) :
    ((.deviations group.id :: .standardized group.id :: group.choleskyFactor).filter fun v =>
      v.name ∉ s.terms.excluded keepEffects keepInternal) =
    .deviations group.id ::
      if keepInternal then .standardized group.id :: group.choleskyFactor else [] := by
  have owned : ∀ v ∈ Variable.deviations group.id :: .standardized group.id ::
      group.choleskyFactor, v.owner = .group group.id := by
    unfold Group.choleskyFactor
    split <;> simp [Variable.owner]
  rw [filter_ofGroup distinct inside owned, TermTree.droppedOfGroup, Group.choleskyFactor,
    Group.singleEffects]
  cases keepInternal <;> cases keepEffects <;> cases group.hasCorrelations <;> simp

/-- The scaled effects of a group that stay. -/
theorem filter_effects (distinct : (s.terms.groups.map Group.id).Nodup) {group : Group}
    (inside : group ∈ s.terms.groups) :
    ((.effects group.id :: group.singleEffects).filter fun v =>
      v.name ∉ s.terms.excluded keepEffects keepInternal) =
    if keepEffects then group.singleEffects else [] := by
  have owned : ∀ v ∈ Variable.effects group.id :: group.singleEffects,
      v.owner = .group group.id := by
    simp [Group.singleEffects, Variable.owner]
  rw [filter_ofGroup distinct inside owned, TermTree.droppedOfGroup, Group.choleskyFactor,
    Group.singleEffects]
  cases keepInternal <;> cases keepEffects <;> cases group.hasCorrelations <;> simp

/-- No draw from a prior is of a kind that may be dropped. -/
theorem kinds_priorDraws : ∀ v ∈ (Program.priorDraws s).map PriorDraw.target,
    v.isDroppable = false := by
  have shared : ∀ v ∈ [Variable.priorSlopes, .priorIntercept, .priorAuxiliary .sigma,
      .priorAuxiliary .nu, .priorAuxiliary .shape, .priorFeedback], v.isDroppable = false := by
    decide
  intro v mem
  rw [Program.priorDraws, Program.draws_eq, List.map_append, List.map_flatMap] at mem
  rcases List.mem_append.mp mem with model | groups
  · exact shared v ((Program.modelDraws_sublist s).subset model)
  · obtain ⟨group, _, here⟩ := List.mem_flatMap.mp groups
    unfold Program.groupDraws at here
    split at here
    · rw [List.mem_singleton.mp ((Program.target_drawOf _ _ _).subset here)]
      rfl
    · cases here

/-- The variables of each draw whose names are not dropped are those that remain, in the order of the
program. -/
theorem filter_drawn (distinct : (s.terms.groups.map Group.id).Nodup) :
    ((Program.ofSpecification s).drawn.filter fun v =>
      v.name ∉ s.terms.excluded keepEffects keepInternal) =
        s.remaining keepEffects keepInternal := by
  have temporary : ((if s.terms.intercept then [Variable.temporaryIntercept] else []).filter
      fun v => v.name ∉ s.terms.excluded keepEffects keepInternal) = [] := by
    refine List.filter_eq_nil_iff.mpr fun v mem => ?_
    split at mem
    · rename_i given
      rw [List.mem_singleton.mp mem]
      simpa [TermTree.name_mem_excluded] using TermTree.temporaryIntercept_mem_dropped.mpr given
    · cases mem
  have parameters : (s.terms.groups.flatMap fun group =>
      (.deviations group.id :: .standardized group.id :: group.choleskyFactor).filter fun v =>
        v.name ∉ s.terms.excluded keepEffects keepInternal) = _ :=
    List.flatMap_congr fun group inside => filter_groupParameters distinct inside
  have effects : (s.terms.groups.flatMap fun group =>
      (.effects group.id :: group.singleEffects).filter fun v =>
        v.name ∉ s.terms.excluded keepEffects keepInternal) = _ :=
    List.flatMap_congr fun group inside => filter_effects distinct inside
  have optional (condition : Prop) [Decidable condition] (v : Variable)
      (kind : v.isDroppable = false) : ∀ w ∈ if condition then [v] else [],
        w.isDroppable = false := by
    split <;> simp [kind]
  have correlations : ∀ v ∈ s.terms.groups.flatMap Group.correlationMatrix,
      v.isDroppable = false := by
    intro v mem
    obtain ⟨group, _, here⟩ := List.mem_flatMap.mp mem
    exact optional _ _ rfl v here
  rw [Program.drawn_eq, remaining]
  simp only [List.filter_append]
  rw [filter_of_kinds (optional _ .slopes rfl), temporary, List.append_nil,
    filter_of_kinds (by simp [Variable.isDroppable]), filter_of_kinds (optional _ .feedback rfl),
    List.filter_flatMap, parameters, List.filter_flatMap, effects,
    filter_of_kinds (optional _ .intercept rfl), filter_of_kinds correlations,
    filter_of_kinds kinds_priorDraws]

/-- The intercept of the centered design and the matrices of scaled effects never remain. -/
theorem not_mem_remaining {v : Variable} (internal : v = .temporaryIntercept ∨ ∃ i, v = .effects i) :
    v ∉ s.remaining keepEffects keepInternal := by
  have drawn : v ∉ (Program.priorDraws s).map PriorDraw.target := by
    intro mem
    have kind := kinds_priorDraws v mem
    rcases internal with rfl | ⟨i, rfl⟩ <;> cases kind
  rw [remaining, List.mem_append, or_iff_left drawn]
  unfold Group.choleskyFactor Group.singleEffects Group.correlationMatrix
  rcases internal with rfl | ⟨i, rfl⟩ <;> cases keepEffects <;> cases keepInternal <;> simp

/-- The program declares each variable that is dropped. -/
theorem mem_drawn_of_mem_dropped {v : Variable}
    (mem : v ∈ s.terms.dropped keepEffects keepInternal) :
    v ∈ (Program.ofSpecification s).drawn := by
  rw [Program.drawn_eq]
  rcases List.mem_append.mp mem with shared | own
  · split at shared
    · rw [List.mem_singleton.mp shared]
      simp [*]
    · cases shared
  · obtain ⟨group, inside, here⟩ := List.mem_flatMap.mp own
    have parameter : v ∈ Variable.deviations group.id :: .standardized group.id ::
          group.choleskyFactor ∨ v ∈ Variable.effects group.id :: group.singleEffects := by
      unfold TermTree.droppedOfGroup at here
      cases keepInternal <;> cases keepEffects <;> grind
    simp only [List.mem_append, List.mem_flatMap]
    rcases parameter with parameter | effect
    · exact .inl (.inl (.inl (.inl (.inr ⟨group, inside, parameter⟩))))
    · exact .inl (.inl (.inl (.inr ⟨group, inside, effect⟩)))

end Specification

namespace Posterior

variable {α : Type}

/-- The names of the variables that are left. -/
theorem names_without (p : Posterior α) (names : List String) :
    (p.without names).draws.names = p.draws.names.filter fun name => name ∉ names := by
  rw [Dataset.names, Dataset.names, without, Dataset.without, Entries.without, List.filter_map]
  congr 1
  refine List.filter_congr fun entry _ => ?_
  simp

/-- The arrays that are left are as they were. -/
theorem lookup_without (p : Posterior α) {names : List String} {name : String}
    (stays : name ∉ names) :
    (p.without names).draws.arrays.lookup name = p.draws.arrays.lookup name :=
  (Entries.lookup_without _ _ _).trans (if_neg stays)

end Posterior

namespace Specification

/-- For all terms and all choices of what is kept, the names that are dropped are different and each
is declared by the program of these terms. Of the variables of each draw exactly the shared
coefficients, the distribution parameters, the autoregressive coefficients, the standard deviations,
the intercept of the design as given, the correlations and the draws from priors remain, with the
single effects if effects are kept and the standardized effects and Cholesky factors if internal
parameters are. Dropping the names from draws of these variables, and of others of the user, leaves
the arrays of those that remain as they were. -/
theorem drops_exactly {formula : Formula} {family : Family}
    {autocorrelation : Option Autocorrelation} {frame : Frame} {covariances : List String}
    {s : Specification}
    (built : TermTree.build formula family autocorrelation frame covariances = .ok s.terms)
    (keepEffects keepInternal : Bool) :
    let names := s.terms.excluded keepEffects keepInternal
    let drawn := (Program.ofSpecification s).drawn
    let remaining := s.remaining keepEffects keepInternal
    names.Nodup ∧ (∀ name ∈ names, ∃ v ∈ drawn, v.name = name) ∧
    drawn.filter (fun v => v.name ∉ names) = remaining ∧
    .temporaryIntercept ∉ remaining ∧ (∀ i, .effects i ∉ remaining) ∧
    ∀ {α : Type} (p : Posterior α) (own : List String),
      p.draws.names.Perm (drawn.map Variable.name ++ own) →
      (p.without names).draws.names.Perm
        (remaining.map Variable.name ++ own.filter fun name => name ∉ names) ∧
      (∀ name ∉ names, (p.without names).draws.arrays.lookup name = p.draws.arrays.lookup name) ∧
      (p.without names).chains = p.chains ∧ (p.without names).stats = p.stats := by
  intro names drawn remaining
  have distinct : (s.terms.groups.map Group.id).Nodup := by
    rw [(TermTree.build_eq_ok built).2.2.ids]
    exact List.nodup_range'
  have listed : names = (s.terms.dropped keepEffects keepInternal).map Variable.name :=
    TermTree.excluded_eq s.terms keepEffects keepInternal
  have exact : drawn.filter (fun v => v.name ∉ names) = remaining := filter_drawn distinct
  refine ⟨?_, fun name mem => ?_, exact, ?_, fun i => ?_, fun p own held => ⟨?_, fun name stays =>
    p.lookup_without stays, rfl, rfl⟩⟩
  · rw [listed]
    exact (TermTree.nodup_dropped distinct _ _).map Variable.name_injective
  · rw [listed] at mem
    obtain ⟨v, dropped, rfl⟩ := List.mem_map.mp mem
    exact ⟨v, mem_drawn_of_mem_dropped dropped, rfl⟩
  · exact not_mem_remaining (.inl rfl)
  · exact not_mem_remaining (.inr ⟨i, rfl⟩)
  · rw [p.names_without, ← exact]
    refine (held.filter _).trans (.of_eq ?_)
    rw [List.filter_append, List.filter_map]
    rfl

/-- A small model with correlated effects, of which neither the effects nor internal parameters are
kept: five variables remain of eleven, and one of the user. -/
theorem sample_drops : ∃ s, (normalize sample).outcome = .ok s ∧
    s.terms.excluded false false = ["temp_Intercept", "r_1", "z_1", "L_1", "r_1_1", "r_1_2"] ∧
    (s.terms.excluded false false).Nodup ∧
    ∃ p : Posterior Float,
      p.draws.names = (Program.ofSpecification s).drawn.map Variable.name ++ ["own"] ∧
      (p.without (s.terms.excluded false false)).draws.names.Perm
        ["b", "sigma", "sd_1", "b_Intercept", "Cor_1", "own"] := by
  obtain ⟨s, accepted, computed⟩ := exists_of_any (normalize sample).outcome
    (fun s => s.terms.excluded false false =
        ["temp_Intercept", "r_1", "z_1", "L_1", "r_1_1", "r_1_2"] ∧
      (s.remaining false false).map Variable.name = ["b", "sigma", "sd_1", "b_Intercept", "Cor_1"])
    (by decide +kernel)
  obtain ⟨names, remaining⟩ := of_decide_eq_true computed
  obtain ⟨distinct, _, _, _, _, left⟩ :=
    drops_exactly (normalize_eq_ok_iff.mp accepted).terms false false
  let p : Posterior Float := ⟨[1], ⟨((Program.ofSpecification s).drawn.map Variable.name ++
    ["own"]).map fun name => (name, ⟨[], #[0.0]⟩), []⟩, ⟨[], []⟩⟩
  have held : p.draws.names = (Program.ofSpecification s).drawn.map Variable.name ++ ["own"] := by
    rw [Dataset.names, List.map_map]
    exact List.map_id _
  have stays := (left p ["own"] (.of_eq held)).1
  rw [remaining, show ["own"].filter (fun name => name ∉ s.terms.excluded false false) = ["own"] by
    rw [names]; decide] at stays
  exact ⟨s, accepted, names, distinct, p, held, stays⟩

end Specification

end Multilevel
