import Mathlib
import Multilevel.Inits.Resolve
import Multilevel.Proofs.Outcome

/-!
# Calls that bind

The rule of binding for calls that name their arguments: each argument goes to the parameter of its
name or, if there is none that takes it, to the one that takes all further names; none is left over,
no parameter is given two, and none that needs an argument goes without. The check of a function is
compared with this rule (`InitFunction.check_spec`). It refuses only functions that no call serves.
What it accepts is served by the call that is made of it, unless the name of the chain's number is
that of a parameter that cannot be named.
-/
namespace Multilevel

namespace Parameter

/-- Whether a parameter can be given under its own name. -/
def isNamable (p : Parameter) : Bool := p.kind == .plain || p.kind == .named

/-- The parameter that an argument under a name goes to. -/
def receiver? (parameters : List Parameter) (name : String) : Option Parameter :=
  match parameters.find? fun p => p.name == name && p.isNamable with
  | some p => some p
  | none => parameters.find? fun p => p.kind == .restNamed

/-- Whether parameters take a call with one argument under each of some names, and none besides. -/
structure Take (parameters : List Parameter) (names : List String) : Prop where
  /-- No argument is left over. -/
  placed : ∀ name ∈ names, (receiver? parameters name).isSome = true
  /-- No parameter is given two arguments under names, the one for further names apart. -/
  single : ((names.filterMap (receiver? parameters)).filter isNamable).Nodup
  /-- No parameter that needs an argument goes without. -/
  served : ∀ p ∈ parameters, p.isNeeded = true → ∃ name ∈ names, receiver? parameters name = some p

/-- A parameter that takes further names needs no argument. -/
theorem isNeeded_of_kind {p : Parameter} (rest : p.kind = .restNamed) : p.isNeeded = false := by
  simp [isNeeded, takesRest, rest]

/-- A parameter that takes the number of a chain can be named. -/
theorem takesChain_iff {p : Parameter} :
    p.takesChain = true ↔ p.name = chainParameter ∧ p.isNamable = true := by
  simp [takesChain, isNamable]

variable {parameters : List Parameter}

/-- Of parameters with distinct names, the one that takes the number of a chain receives it. -/
theorem receiver?_of_takesChain (distinct : (parameters.map name).Nodup) {p : Parameter}
    (mem : p ∈ parameters) (takes : p.takesChain = true) :
    receiver? parameters chainParameter = some p := by
  obtain ⟨named, namable⟩ := takesChain_iff.mp takes
  have found : parameters.find? (fun p => p.name == chainParameter && p.isNamable) = some p := by
    cases found : parameters.find? fun p => p.name == chainParameter && p.isNamable with
    | none =>
      have absent := List.find?_eq_none.mp found p mem
      simp [named, namable] at absent
    | some q =>
      have own := List.find?_some found
      rw [Bool.and_eq_true, beq_iff_eq] at own
      exact congrArg some (List.inj_on_of_nodup_map distinct (List.mem_of_find?_eq_some found) mem
        (own.1.trans named.symm))
  rw [receiver?, found]

/-- A parameter of the name does not take the number of a chain if it cannot be named or takes all
further arguments. -/
theorem takesChain_eq_false_iff {p : Parameter} (named : p.name = chainParameter) :
    p.takesChain = false ↔
      p.kind = .positional ∨ p.kind = .restPositional ∨ p.kind = .restNamed := by
  cases kind : p.kind <;> simp [takesChain, named, kind]

/-- A parameter that needs an argument receives the number of a chain only if it takes it. -/
theorem takesChain_of_receiver? {p : Parameter} (needed : p.isNeeded = true)
    (received : receiver? parameters chainParameter = some p) : p.takesChain = true := by
  unfold receiver? at received
  split at received
  · rename_i q found
    obtain rfl := Option.some.inj received
    have own := List.find?_some found
    rw [Bool.and_eq_true, beq_iff_eq] at own
    exact takesChain_iff.mpr own
  · have rest := List.find?_some received
    rw [isNeeded_of_kind (beq_iff_eq.mp rest)] at needed
    cases needed

/-- The number of a chain is received by some parameter exactly if one takes it or takes all further
names. -/
theorem isSome_receiver?_iff : (receiver? parameters chainParameter).isSome = true ↔
    ∃ p ∈ parameters, p.takesChain = true ∨ p.kind = .restNamed := by
  unfold receiver?
  split
  · rename_i q found
    have own := List.find?_some found
    rw [Bool.and_eq_true, beq_iff_eq] at own
    exact iff_of_true rfl ⟨q, List.mem_of_find?_eq_some found, .inl (takesChain_iff.mpr own)⟩
  · rename_i none
    rw [List.find?_isSome]
    constructor
    · rintro ⟨p, mem, rest⟩
      exact ⟨p, mem, .inr (beq_iff_eq.mp rest)⟩
    · rintro ⟨p, mem, takes | rest⟩
      · have absent := List.find?_eq_none.mp none p mem
        simp [takesChain_iff.mp takes] at absent
      · exact ⟨p, mem, beq_iff_eq.mpr rest⟩

end Parameter

namespace InitCall

/-- The names that the arguments of a call are given under. -/
def names : InitCall → List String
  | bare => []
  | withChain => [chainParameter]

/-- A call with nothing binds if no parameter needs an argument. -/
theorem binds_bare_iff {parameters : List Parameter} :
    bare.binds parameters = true ↔ ∀ p ∈ parameters, p.isNeeded = false := by
  simp [binds]

/-- A call with the number of a chain binds if a parameter receives it and no other one needs an
argument. -/
theorem binds_withChain_iff {parameters : List Parameter} :
    withChain.binds parameters = true ↔
      (∃ p ∈ parameters, p.takesChain = true ∨ p.kind = .restNamed) ∧
        ∀ p ∈ parameters, p.isNeeded = true → p.takesChain = true := by
  simp [binds, imp_iff_not_or]

open Parameter in
/-- The two calls bind by the rule of binding. -/
theorem binds_iff {parameters : List Parameter} (distinct : (parameters.map Parameter.name).Nodup)
    (call : InitCall) : call.binds parameters = true ↔ Take parameters call.names := by
  cases call with
  | bare =>
    rw [binds_bare_iff]
    constructor
    · intro free
      exact ⟨by simp [names], by simp [names], fun p mem needed => by simp [free p mem] at needed⟩
    · intro taken p mem
      by_contra needed
      obtain ⟨_, none, _⟩ := taken.served p mem (Bool.not_eq_false _ ▸ needed)
      cases none
  | withChain =>
    rw [binds_withChain_iff, ← isSome_receiver?_iff]
    constructor
    · rintro ⟨placed, served⟩
      refine ⟨by simpa [names] using placed, ?_, fun p mem needed => ?_⟩
      · rw [names, List.filterMap_cons]
        split
        · simp
        · exact (List.nodup_singleton _).filter _
      · exact ⟨_, List.mem_singleton_self _,
          receiver?_of_takesChain distinct mem (served p mem needed)⟩
    · intro taken
      refine ⟨taken.placed _ (List.mem_singleton_self _), fun p mem needed => ?_⟩
      obtain ⟨_, named, received⟩ := taken.served p mem needed
      obtain rfl := List.mem_singleton.mp named
      exact takesChain_of_receiver? needed received

end InitCall

namespace InitFunction

/-- Whether the name of the chain's number is that of a parameter that cannot be named, and no other
parameter makes up for it: the parameter needs its argument, or there is none that takes further
names. -/
def HidesChain (f : InitFunction) : Prop :=
  ∃ p ∈ f.parameters, p.name = chainParameter ∧ (p.kind = .positional ∨ p.kind = .restPositional) ∧
    (p.isNeeded = true ∨ ∀ q ∈ f.parameters, q.kind ≠ .restNamed)

/-- A function is accepted exactly if all that its parameters need is the number of a chain. -/
theorem check_eq_ok_iff {f : InitFunction} :
    f.check = .ok () ↔ ∀ p ∈ f.parameters, p.isNeeded = true → p.name = chainParameter := by
  have none : f.needed = [] ↔ ∀ p ∈ f.parameters, p.isNeeded = true → p.name = chainParameter := by
    simp [needed]
  rw [check, ← none]
  cases f.needed <;> simp

/-- A function that binds the number of a chain does not hide it. -/
theorem not_hidesChain_of_binds {f : InitFunction} (distinct : (f.parameters.map Parameter.name).Nodup)
    (binds : InitCall.withChain.binds f.parameters = true) : ¬f.HidesChain := by
  obtain ⟨⟨q, inside, receives⟩, served⟩ := InitCall.binds_withChain_iff.mp binds
  rintro ⟨p, mem, named, kind, unable⟩
  -- The parameter of the name cannot be named, so it is not the one that receives.
  have untaken : p.takesChain = false :=
    (Parameter.takesChain_eq_false_iff named).mpr (kind.imp_right .inl)
  rcases unable with needed | closed
  · cases (served p mem needed).symm.trans untaken
  · rcases receives with takes | rest
    · have same := List.inj_on_of_nodup_map distinct inside mem
        ((Parameter.takesChain_iff.mp takes).1.trans named.symm)
      cases (same ▸ takes).symm.trans untaken
    · exact closed q inside rest

/-- A function that is called with the number of a chain binds it unless it hides it. -/
theorem binds_of_not_hidesChain {f : InitFunction}
    (needs : ∀ p ∈ f.parameters, p.isNeeded = true → p.name = chainParameter)
    (offers : ∃ p ∈ f.parameters, p.name = chainParameter ∨ p.kind = .restNamed)
    (shown : ¬f.HidesChain) : InitCall.withChain.binds f.parameters = true := by
  refine InitCall.binds_withChain_iff.mpr ⟨?_, fun p mem needed => ?_⟩
  · by_contra unreceived
    push Not at unreceived
    obtain ⟨p, mem, named | rest⟩ := offers
    · obtain ⟨untaken, limited⟩ := unreceived p mem
      have kind := (Parameter.takesChain_eq_false_iff named).mp (Bool.eq_false_iff.mpr untaken)
      exact shown ⟨p, mem, named, kind.imp_right fun kind => kind.resolve_right limited,
        .inr fun q inside => (unreceived q inside).2⟩
    · exact (unreceived p mem).2 rest
  · have named := needs p mem needed
    by_contra untaken
    have kind := (Parameter.takesChain_eq_false_iff named).mp (Bool.eq_false_iff.mpr untaken)
    have limited : p.kind ≠ .restNamed := fun rest => by
      simp [Parameter.isNeeded_of_kind rest] at needed
    exact shown ⟨p, mem, named, kind.imp_right fun kind => kind.resolve_right limited, .inl needed⟩

/-- A function that is accepted binds the call that is made of it unless it hides the number of the
chain. -/
theorem binds_call_iff {f : InitFunction} (distinct : (f.parameters.map Parameter.name).Nodup)
    (accepted : f.check = .ok ()) : f.call.binds f.parameters = true ↔ ¬f.HidesChain := by
  have needs := check_eq_ok_iff.mp accepted
  by_cases offers : ∃ p ∈ f.parameters, p.name = chainParameter ∨ p.kind = .restNamed
  · have call : f.call = .withChain := by
      simpa [InitFunction.call, or_iff_not_imp_left] using offers
    rw [call]
    exact ⟨not_hidesChain_of_binds distinct, binds_of_not_hidesChain needs offers⟩
  · have call : f.call = .bare := by
      simpa [InitFunction.call, or_iff_not_imp_left] using offers
    push Not at offers
    rw [call]
    refine iff_of_true (InitCall.binds_bare_iff.mpr fun p mem => ?_) ?_
    · by_contra needed
      exact (offers p mem).1 (needs p mem (Bool.not_eq_false _ ▸ needed))
    · rintro ⟨p, mem, named, _⟩
      exact (offers p mem).1 named

/-- A function answers a call that binds, and does not answer any other. -/
theorem result_eq_unsupported_iff (f : InitFunction) (chain : Nat) :
    f.result chain = .error .unsupported ↔ ¬f.call.binds f.parameters = true := by
  unfold result
  split
  · rename_i bound
    refine iff_of_false (fun failed => ?_) (not_not_intro bound)
    cases given : f.returns with
    | always | chainUnder => simp [given] at failed
    | listed values =>
      rw [given] at failed
      dsimp only at failed
      cases found : values[chain - 1]? <;> simp [found] at failed
  · rename_i unbound
    exact iff_of_true rfl unbound

/-- The check of a function and the rule of binding: a function that is refused is served neither by
a call with nothing nor by one with the number of a chain; one that is accepted takes the call that is
made of it, and answers it for every chain, exactly if it does not hide the number of the chain. -/
theorem check_spec (f : InitFunction) (distinct : (f.parameters.map Parameter.name).Nodup) :
    (∀ e, f.check = .error e →
      ¬Parameter.Take f.parameters [] ∧ ¬Parameter.Take f.parameters [chainParameter]) ∧
    (f.check = .ok () →
      (Parameter.Take f.parameters f.call.names ↔ ¬f.HidesChain) ∧
      ∀ chain, f.result chain = .error .unsupported ↔ f.HidesChain) := by
  constructor
  · intro e refused
    have other : ∃ p ∈ f.parameters, p.isNeeded = true ∧ p.name ≠ chainParameter := by
      by_contra all
      push Not at all
      rw [check_eq_ok_iff.mpr all] at refused
      cases refused
    obtain ⟨p, mem, needed, differs⟩ := other
    constructor
    · intro taken
      obtain ⟨_, none, _⟩ := taken.served p mem needed
      cases none
    · intro taken
      obtain ⟨_, named, received⟩ := taken.served p mem needed
      obtain rfl := List.mem_singleton.mp named
      exact differs (Parameter.takesChain_iff.mp (Parameter.takesChain_of_receiver? needed
        received)).1
  · intro accepted
    have bound := binds_call_iff distinct accepted
    refine ⟨(InitCall.binds_iff distinct f.call).symm.trans bound, fun chain => ?_⟩
    rw [result_eq_unsupported_iff, bound, not_not]

/-- A function of the number of the chain with a scale that may be left out and further names. -/
def scaled : InitFunction where
  name := "scaled"
  parameters := [⟨chainParameter, .plain, false⟩, ⟨"scale", .named, true⟩,
    ⟨"further", .restNamed, false⟩]
  returns := .chainUnder "sigma"

/-- It is accepted, and answers for every chain. -/
theorem scaled_answers : (scaled.parameters.map Parameter.name).Nodup ∧ scaled.check = .ok () ∧
    Parameter.Take scaled.parameters scaled.call.names ∧
    ∀ chain, scaled.result chain ≠ .error .unsupported := by
  have shown : ¬scaled.HidesChain := by
    rintro ⟨p, mem, named, kind, _⟩
    revert named kind
    revert p
    decide
  have checked := (check_spec scaled (by decide)).2 (by decide)
  exact ⟨by decide, by decide, checked.1.mpr shown,
    fun chain failed => shown ((checked.2 chain).mp failed)⟩

/-- A function with one parameter, which has the name of the chain's number and a default, and is
given by position alone. -/
def positioned : InitFunction where
  name := "positioned"
  parameters := [⟨chainParameter, .positional, true⟩]
  returns := .always (.record [("b", .int 0)])

/-- It is accepted and could be called with nothing, but the call that is made of it does not bind. -/
theorem positioned_unbound : positioned.check = .ok () ∧
    Parameter.Take positioned.parameters [] ∧
    ¬Parameter.Take positioned.parameters positioned.call.names ∧
    InitChoice.ofFunction positioned 1 = .error (.fault .unsupported) := by
  have distinct : (positioned.parameters.map Parameter.name).Nodup := by decide
  refine ⟨by decide, (InitCall.binds_iff distinct .bare).mp (by decide), fun taken => ?_, by rfl⟩
  have bound := (InitCall.binds_iff distinct positioned.call).mpr taken
  revert bound
  decide

end InitFunction

end Multilevel
