import Multilevel.Proofs.Draws.Merge
import Multilevel.Proofs.Run.Dispatch

/-!
# Initial values of configured runs

Initial values are resolved against one number of chains, checked against another and looked up
in a third place, where the jobs are made. For sampling the three agree: every chain finds what
the caller's choice gives it. An approximation counts by a rule of its own, under which an empty
list passes for no chains; that list is the only choice that is accepted and then not found.
-/
namespace Multilevel

variable {registry : InitRegistry} {f : InitFunction} {choice : InitChoice} {chains : Whole}
  {inits : Inits} {place : Nat} {own : ChainInits}

namespace InitChoice

/-- What a choice gives the chain at a place, which is counted from zero. -/
inductive Gives (registry : InitRegistry) (place : Nat) : InitChoice → ChainInits → Prop
  | unset : Gives registry place .unset .random
  | random : Gives registry place (.named "random") .random
  | zero : Gives registry place (.named "0") (.shared (.whole 0))
  | registered {text : String} {f : InitFunction} {fields : InitRecord}
      (free : text ∉ InitRegistry.reserved) (found : registry.lookup text = some f)
      (returned : f.result (place + 1) = .ok (.record fields)) :
      Gives registry place (.named text) (.own fields)
  | spelled {text : String} {x : Float} (free : text ∉ InitRegistry.reserved)
      (unknown : registry.lookup text = none) (number : Number.float? text = some x) :
      Gives registry place (.named text) (.shared (.real x))
  | radius (q : Quantity) : Gives registry place (.radius q) (.shared q)
  | function {f : InitFunction} {fields : InitRecord}
      (returned : f.result (place + 1) = .ok (.record fields)) :
      Gives registry place (.function f) (.own fields)
  | listed {items : List Value} {fields : InitRecord}
      (element : items[place]? = some (.record fields)) :
      Gives registry place (.listed items) (.own fields)

/-- Only a record is taken for the initial values of a chain. -/
theorem recordOf_eq_ok {value : Value} {chain : Nat} {fields : InitRecord} :
    recordOf value chain = .ok fields ↔ value = .record fields := by
  cases value <;> simp [recordOf]

/-- The records that a function gives are its results, in the order of the chains. -/
theorem recordsFrom_eq_ok {chain more : Nat} {records : List InitRecord}
    (done : recordsFrom f chain more = .ok records) : records.length = more ∧
      ∀ k fields, records[k]? = some fields → f.result (chain + k) = .ok (.record fields) := by
  induction more generalizing chain records with
  | zero =>
    obtain rfl := Except.ok.inj done
    exact ⟨rfl, fun k fields element => by cases element⟩
  | succ more ih =>
    simp only [recordsFrom, bind_eq_ok, liftM_eq_mapError, mapError_eq_ok, pure_eq_ok,
      recordOf_eq_ok] at done
    obtain ⟨_, first, fields, rfl, rest, others, rfl⟩ := done
    obtain ⟨length, results⟩ := ih others
    refine ⟨by rw [List.length_cons, length], fun k given element => ?_⟩
    cases k with
    | zero =>
      obtain rfl := Option.some.inj element
      exact first
    | succ k =>
      have later := results k given element
      rwa [Nat.add_assoc, Nat.add_comm 1 k] at later

/-- A function's initial values: there is a record for each chain, which the function returned. -/
theorem ofFunction_eq_ok (done : ofFunction f chains = .ok inits) : ∃ records,
    inits = .perChain records ∧ records.length = chains.toInt.toNat ∧
      ∀ k fields, records[k]? = some fields → f.result (k + 1) = .ok (.record fields) := by
  simp only [ofFunction, bind_eq_ok, liftM_eq_mapError, mapError_eq_ok, pure_eq_ok] at done
  obtain ⟨_, _, records, made, rfl⟩ := done
  obtain ⟨length, results⟩ := recordsFrom_eq_ok made
  exact ⟨records, rfl, length, fun k fields element => Nat.add_comm 1 k ▸ results k fields element⟩

/-- A list's initial values are the records that it holds, as many as the chains. -/
theorem ofList_eq_ok {items : List Value} (done : ofList items chains = .ok inits) : ∃ records,
    inits = .perChain records ∧ (items.length : Int) = chains.toInt ∧
      items = records.map .record := by
  unfold ofList at done
  dsimp only at done
  split at done
  · cases done
  rename_i length
  simp only [bind_eq_ok, pure_eq_ok] at done
  obtain ⟨records, made, rfl⟩ := done
  refine ⟨records, rfl, not_not.mp length, ?_⟩
  rw [mapM_eq_ok] at made
  have same : List.Forall₂ (fun a b => a = b) (items.zipIdx.map Prod.fst)
      (records.map Value.record) :=
    List.forall₂_map_left_iff.mpr (List.forall₂_map_right_iff.mpr
      (made.imp fun _ _ => recordOf_eq_ok.mp))
  rwa [List.forall₂_eq_eq_eq, List.zipIdx_map_fst] at same

/-- A range's initial values are shared. -/
theorem ofRadius_eq_ok {q : Quantity} (done : ofRadius q = .ok inits) : inits = .shared q := by
  unfold ofRadius at done
  split at done
  · cases done
  · exact (Except.ok.inj done).symm

/-- Records of chains are looked up by the place of a chain. -/
theorem ofChain_perChain {records : List InitRecord}
    (found : (Inits.perChain records).ofChain place = .ok own) :
    ∃ fields, records[place]? = some fields ∧ own = .own fields := by
  simp only [Inits.ofChain] at found
  split at found
  · rename_i fields element
    exact ⟨fields, element, (Except.ok.inj found).symm⟩
  · cases found

/-- Initial values that chains share are found for every chain. -/
theorem ofChain_shared {q : Quantity} (found : (Inits.shared q).ofChain place = .ok own) :
    own = .shared q := (Except.ok.inj found).symm

/-- A function gives each chain a record that it returned for this chain. -/
theorem gives_of_ofFunction (done : ofFunction f chains = .ok inits)
    (found : inits.ofChain place = .ok own) :
    ∃ fields, own = .own fields ∧ f.result (place + 1) = .ok (.record fields) := by
  obtain ⟨records, rfl, _, results⟩ := ofFunction_eq_ok done
  obtain ⟨fields, element, rfl⟩ := ofChain_perChain found
  exact ⟨fields, rfl, results place fields element⟩

/-- What a chain finds is what the text gives it. -/
theorem gives_of_ofText {text : String} (done : ofText registry text chains = .ok inits)
    (found : inits.ofChain place = .ok own) : Gives registry place (.named text) own := by
  unfold ofText at done
  split at done
  · rename_i word
    obtain rfl := pure_eq_ok.mp done
    obtain rfl := Except.ok.inj found
    rw [word]
    exact .random
  · rename_i random
    split at done
    · rename_i word
      obtain rfl := pure_eq_ok.mp done
      obtain rfl := ofChain_shared found
      rw [word]
      exact .zero
    · rename_i zero
      have free : text ∉ InitRegistry.reserved := by simp [InitRegistry.reserved, random, zero]
      split at done
      · rename_i f known
        obtain ⟨fields, rfl, returned⟩ := gives_of_ofFunction done found
        exact .registered free known returned
      · rename_i unknown
        split at done
        · rename_i x number
          obtain rfl := ofRadius_eq_ok (mapError_eq_ok.mp done)
          obtain rfl := ofChain_shared found
          exact .spelled free unknown number
        · cases done

/-- What a chain finds among resolved initial values is what the choice gives it. -/
theorem gives_of_resolve (done : resolve registry choice chains = .ok inits)
    (found : inits.ofChain place = .ok own) : Gives registry place choice own := by
  cases choice with
  | unset =>
    obtain rfl := pure_eq_ok.mp done
    obtain rfl := Except.ok.inj found
    exact .unset
  | named text => exact gives_of_ofText done found
  | truth => cases done
  | radius q =>
    obtain rfl := ofRadius_eq_ok (mapError_eq_ok.mp done)
    obtain rfl := ofChain_shared found
    exact .radius q
  | function f =>
    obtain ⟨fields, rfl, returned⟩ := gives_of_ofFunction done found
    exact .function returned
  | listed items =>
    obtain ⟨records, rfl, _, rfl⟩ := ofList_eq_ok (mapError_eq_ok.mp done)
    obtain ⟨fields, element, rfl⟩ := ofChain_perChain found
    exact .listed (by rw [List.getElem?_map, element]; rfl)

/-- A text gives records only through a function. -/
theorem length_of_ofText {text : String} {records : List InitRecord}
    (done : ofText registry text chains = .ok (.perChain records)) :
    records.length = chains.toInt.toNat := by
  unfold ofText at done
  split at done
  · cases done
  · split at done
    · cases done
    · split at done
      · obtain ⟨_, same, length, _⟩ := ofFunction_eq_ok done
        rwa [Inits.perChain.inj same]
      · split at done
        · cases ofRadius_eq_ok (mapError_eq_ok.mp done)
        · cases done

/-- There is a record for each chain if there are records. -/
theorem length_of_resolve {records : List InitRecord}
    (done : resolve registry choice chains = .ok (.perChain records)) :
    records.length = chains.toInt.toNat := by
  cases choice with
  | unset => cases done
  | named text => exact length_of_ofText done
  | truth => cases done
  | radius q => cases ofRadius_eq_ok (mapError_eq_ok.mp done)
  | function f =>
    obtain ⟨_, same, length, _⟩ := ofFunction_eq_ok done
    rwa [Inits.perChain.inj same]
  | listed items =>
    obtain ⟨_, same, length, rfl⟩ := ofList_eq_ok (mapError_eq_ok.mp done)
    rw [Inits.perChain.inj same]
    rw [List.length_map] at length
    omega

end InitChoice

/-- A chain finds its initial values exactly if there is a record at its place, where chains have
their own. -/
theorem Inits.exists_ofChain_iff : (∃ own, inits.ofChain place = .ok own) ↔
    ∀ records, inits = .perChain records → place < records.length := by
  cases inits with
  | random => simp [ofChain]
  | shared radius => simp [ofChain]
  | perChain records =>
    simp only [ofChain, perChain.injEq, forall_eq']
    cases element : records[place]? with
    | none => simpa using List.getElem?_eq_none_iff.mp element
    | some fields =>
      simpa using (List.getElem?_eq_some_iff.mp element).1

/-- Initial values that are not found are looked for beyond the end. -/
theorem Inits.eq_outOfBounds {e : Fault} (missing : inits.ofChain place = .error e) :
    e = .outOfBounds := by
  cases inits with
  | random => cases missing
  | shared => cases missing
  | perChain records =>
    simp only [ofChain] at missing
    split at missing
    · cases missing
    · exact (Except.error.inj missing).symm

namespace RunArguments

variable {a : RunArguments} {session : SessionSettings} {config : RunConfig}

/-- The configurations that arguments are accepted as. -/
theorem configure_eq_ok (accepted : (a.configure session).outcome = .ok config) :
    config.validate = .ok () ∧
      ((a.algorithm = "sampling" ∧ ∃ c, a.sampling session = .ok c ∧ config = .sampling c) ∨
        (a.algorithm ≠ "sampling" ∧ ∃ c, (a.variational session).outcome = .ok c ∧
          config = .variational c)) := by
  unfold configure at accepted
  dsimp only at accepted
  rw [Reported.outcome_ite] at accepted
  split at accepted
  · cases accepted
  · split at accepted
    · rename_i sampling
      simp only [map_eq_pure_bind, Reported.outcome_bind, bind_eq_ok, Reported.outcome_liftM,
        mapError_eq_ok, Reported.outcome_pure, Except.ok.injEq] at accepted
      obtain ⟨_, ⟨c, made, rfl⟩, _, valid, rfl⟩ := accepted
      exact ⟨valid, .inl ⟨sampling, c, made, rfl⟩⟩
    · rename_i sampling
      simp only [map_eq_pure_bind, Reported.outcome_bind, bind_eq_ok, Reported.outcome_liftM,
        mapError_eq_ok, Reported.outcome_pure, Except.ok.injEq] at accepted
      obtain ⟨_, ⟨c, made, rfl⟩, _, valid, rfl⟩ := accepted
      exact ⟨valid, .inr ⟨sampling, c, made, rfl⟩⟩

/-- What a sampling run takes from the arguments. -/
theorem sampling_eq_ok {c : SamplingConfig} (made : a.sampling session = .ok c) :
    c.chains = a.chains.getD 4 ∧ c.seed = a.seed ∧
      a.inits.resolve session.registry c.chains = .ok c.inits := by
  simp only [sampling, bind_eq_ok, pure_eq_ok] at made
  obtain ⟨inits, resolved, rfl⟩ := made
  exact ⟨rfl, rfl, resolved⟩

/-- The initial values of an approximation are resolved by its own count. -/
theorem variational_eq_ok {c : VariationalConfig} (made : (a.variational session).outcome = .ok c) :
    a.inits.resolve session.registry a.variationalInitCount = .ok c.inits := by
  unfold variational at made
  dsimp only at made
  rw [Reported.outcome_ite] at made
  split at made
  · cases made
  rw [Reported.outcome_ite] at made
  split at made
  · cases made
  -- Whether the chains are warned about, the same follows.
  split at made
  on_goal 1 => split at made
  on_goal 1 => rw [Reported.outcome_warn_bind] at made
  all_goals
    simp only [Reported.outcome_bind, bind_eq_ok, Reported.outcome_liftM, mapError_eq_ok,
      Reported.outcome_pure, Except.ok.injEq] at made
    obtain ⟨_, resolved, _, _, _, _, rfl⟩ := made
    exact resolved

/-- The count of an approximation is one but for a list that is as long as the chains asked for. -/
theorem variationalInitCount_cases (a : RunArguments) : a.variationalInitCount.toInt = 1 ∨
    ∃ chains items, a.chains = some chains ∧ a.inits = .listed items ∧
      (items.length : Int) = chains.toInt ∧ a.variationalInitCount = chains := by
  unfold variationalInitCount
  split
  · rename_i chains items asked given
    split
    · rename_i length
      exact .inr ⟨chains, items, asked, given, length, rfl⟩
    · exact .inl rfl
  · exact .inl rfl

end RunArguments

/-- A sampling run that arguments were accepted as: its jobs are made, there is one for each chain
under its number, and each has the seed and what the choice gives its chain. -/
structure SamplingConfig.Serves (a : RunArguments) (session : SessionSettings) (c : SamplingConfig)
    (jobs : List ChainJob) : Prop where
  chains : c.chains = a.chains.getD 4
  positive : 1 ≤ c.chains.toInt
  records : ∀ records, c.inits = .perChain records → (records.length : Int) = c.chains.toInt
  made : c.jobs = .ok jobs
  numbers : jobs.map ChainJob.number = List.range' 1 c.chains.toInt.toNat
  seed : ∀ job ∈ jobs, job.seed = a.seed
  given : ∀ job ∈ jobs, a.inits.Gives session.registry (job.number - 1) job.inits

/-- An approximation that arguments were accepted as: its only job takes what the choice gives the
first chain, and finds it unless the choice is the empty list. -/
structure VariationalConfig.Serves (a : RunArguments) (session : SessionSettings)
    (c : VariationalConfig) : Prop where
  records : ∀ records, c.inits = .perChain records →
    records.length = 1 ∨ ∃ chains, a.chains = some chains ∧ (records.length : Int) = chains.toInt
  given : ∀ own, c.inits.ofChain 0 = .ok own → a.inits.Gives session.registry 0 own
  found : (∃ own, c.inits.ofChain 0 = .ok own) ↔ a.inits ≠ .listed []

section Serves

variable {a : RunArguments} {session : SessionSettings}

/-- The jobs of an accepted sampling run. -/
theorem RunArguments.sampling_serves {c : SamplingConfig} (valid : c.validate = .ok ())
    (made : a.sampling session = .ok c) : ∃ jobs, c.Serves a session jobs := by
  obtain ⟨chains, seed, resolved⟩ := a.sampling_eq_ok made
  obtain ⟨jobs, listed⟩ := c.exists_jobs valid
  have each := SamplingConfig.jobs_eq_ok.mp listed
  have numbers : jobs.map ChainJob.number = InitChoice.chainNumbers c.chains := by
    have same := List.forall₂_map_right_iff.mpr (each.imp fun _ _ own => own.1.symm)
    rw [List.forall₂_eq_eq_eq] at same
    exact same.symm
  refine ⟨jobs, chains, (c.chains_of_validate valid).1, (c.chains_of_validate valid).2, listed, ?_,
    fun job mem => ?_, fun job mem => ?_⟩
  · rw [numbers, InitChoice.chainNumbers, List.range'_eq_map_range]
    exact List.map_congr_left fun k _ => Nat.add_comm k 1
  · obtain ⟨_, _, _, own, _⟩ := exists_mem_of_forall₂ each.flip mem
    rw [own, seed]
  · obtain ⟨number, _, own, _, found⟩ := exists_mem_of_forall₂ each.flip mem
    rw [own]
    exact InitChoice.gives_of_resolve resolved found

/-- The job of an accepted approximation. -/
theorem RunArguments.variational_serves {c : VariationalConfig}
    (made : (a.variational session).outcome = .ok c) : c.Serves a session := by
  have resolved := a.variational_eq_ok made
  have count := a.variationalInitCount_cases
  have length (records : List InitRecord) (each : c.inits = .perChain records) :
      records.length = a.variationalInitCount.toInt.toNat := by
    rw [each] at resolved
    exact InitChoice.length_of_resolve resolved
  refine ⟨fun records each => ?_, fun own found => InitChoice.gives_of_resolve resolved found, ?_⟩
  · rcases count with one | ⟨chains, items, asked, _, enough, same⟩
    · exact .inl (by rw [length records each, one]; rfl)
    · refine .inr ⟨chains, asked, ?_⟩
      rw [length records each, same]
      omega
  · rw [Inits.exists_ofChain_iff]
    constructor
    · intro first empty
      rw [empty] at resolved
      obtain ⟨records, each, _, none⟩ := InitChoice.ofList_eq_ok (mapError_eq_ok.mp resolved)
      have inside := first records each
      rw [List.map_eq_nil_iff.mp none.symm] at inside
      exact absurd inside (Nat.lt_irrefl 0)
    · intro some records each
      rw [length records each]
      rcases count with one | ⟨chains, items, _, listed, enough, same⟩
      · rw [one]
        exact Nat.one_pos
      · have inhabited : 0 < items.length :=
          List.length_pos_of_ne_nil fun none => some (none ▸ listed)
        rw [same]
        omega

end Serves

namespace Engine

variable {engine : Engine} {executable : Executable} {data : BuildData}

/-- Results of chains that were counted to at least one are merged without looking beyond their
end. -/
theorem merge_ne_outOfBounds {results : ChainResults Float} {issued : Int} (some : 1 ≤ issued) :
    ChainResults.merge results issued ≠ .error (.fault .outOfBounds) := by
  intro failed
  rcases ChainResults.merge_eq_error failed with ⟨_, same⟩ | ⟨_, none⟩
  · cases same
  · exact absurd some (Int.not_le.mpr none)

/-- A failure of the engine is not one of a place. -/
theorem failureOf_ne_outOfBounds (part : RunPart) (e : EngineError) :
    failureOf part e ≠ .fault .outOfBounds := by
  unfold failureOf
  split <;> exact fun same => by cases same

/-- No chain of a sampling run that was checked is looked up beyond the end. -/
theorem sampling_ne_outOfBounds {c : SamplingConfig} (valid : c.validate = .ok ()) (w : Workspace) :
    ((engine.dispatch executable data (.sampling c)).run w).1 ≠ .error (.fault .outOfBounds) := by
  by_cases strategy : c.strategy = .futures
  · obtain ⟨jobs, made⟩ := c.exists_jobs valid
    rw [run_dispatch_futures valid strategy made true w, Futures.outcome]
    cases (engine.futures executable data c jobs true).collected with
    | error e => exact fun same => by cases same
    | ok results =>
      have positive := (c.chains_of_validate valid).1
      rw [← c.length_jobs valid made] at positive
      exact merge_ne_outOfBounds positive
  · rw [run_dispatch_batch valid strategy w]
    split
    · exact fun same => by cases same
    · split
      · exact fun same => failureOf_ne_outOfBounds _ _ (Except.error.inj same)
      · split <;> exact fun same => by cases same

/-- An approximation looks beyond the end exactly if it does not find its initial values. -/
theorem variational_eq_outOfBounds {c : VariationalConfig}
    (valid : (RunConfig.variational c).validate = .ok ()) (w : Workspace) :
    ((engine.dispatch executable data (.variational c)).run w).1 = .error (.fault .outOfBounds) ↔
      ¬∃ own, c.inits.ofChain 0 = .ok own := by
  rw [dispatch, valid, Work.run_bind_ok _ (Work.run_check _ w)]
  simp only [runVariational]
  cases found : c.inits.ofChain 0 with
  | error e =>
    rw [Inits.eq_outOfBounds found, Work.run_bind_error _ (Work.run_check _ w)]
    refine iff_of_true rfl ?_
    rintro ⟨_, same⟩
    cases same
  | ok own =>
    rw [Work.run_bind_ok _ (Work.run_check _ w)]
    refine iff_of_false (fun failed => ?_) (not_not_intro ⟨own, rfl⟩)
    split at failed
    · cases failed
    · rw [Work.run_bind_ok _ (Work.run_note _ w), Work.run_check] at failed
      cases drawn : engine.approximate executable data (c.request own.single) with
      | ok =>
        rw [drawn] at failed
        cases failed
      | error e =>
        rw [drawn] at failed
        exact failureOf_ne_outOfBounds _ _ (Except.error.inj failed)

end Engine

namespace RunArguments

/-- Arguments that are accepted describe a run that can be dispatched. Every chain of a sampling run
gets what the choice of initial values gives its number, an approximation what it gives the first
chain, and no place is missing on any engine, but for one choice: an approximation that is given an
empty list with no chains is accepted, and then looks for the first record. -/
theorem configure_serves {a : RunArguments} {session : SessionSettings} {config : RunConfig}
    (accepted : (a.configure session).outcome = .ok config) :
    config.validate = .ok () ∧
    (∀ c, config = .sampling c → ∃ jobs, c.Serves a session jobs) ∧
    (∀ c, config = .variational c → c.Serves a session) ∧
    ∀ (engine : Engine) (executable : Executable) (data : BuildData) (w : Workspace),
      ((engine.dispatch executable data config).run w).1 = .error (.fault .outOfBounds) ↔
        a.algorithm ≠ "sampling" ∧ a.inits = .listed [] := by
  obtain ⟨valid, ⟨sampling, c, made, rfl⟩ | ⟨variational, c, made, rfl⟩⟩ := configure_eq_ok accepted
  · refine ⟨valid, fun _ same => ?_, fun _ same => (nomatch same), fun _ _ _ w => ?_⟩
    · obtain rfl := RunConfig.sampling.inj same
      exact sampling_serves valid made
    · exact iff_of_false (Engine.sampling_ne_outOfBounds valid w) fun other => other.1 sampling
  · have serves := variational_serves made
    refine ⟨valid, fun _ same => (nomatch same), fun _ same => ?_, fun _ _ _ w => ?_⟩
    · obtain rfl := RunConfig.variational.inj same
      exact serves
    · rw [Engine.variational_eq_outOfBounds valid w, serves.found, not_not]
      exact (and_iff_right variational).symm

/-- Two chains with a record each. -/
def recorded : RunArguments where
  chains := some 2
  inits := .listed [.record [("b", .int 1)], .record [("b", .int 2)]]

/-- They are accepted, and the second chain starts from the second record. -/
theorem recorded_serves : ∃ c jobs, (recorded.configure {}).outcome = .ok (.sampling c) ∧
    c.Serves recorded {} jobs ∧
    ∀ job ∈ jobs, job.number = 2 → job.inits.value = .record [("b", .int 2)] := by
  have accepted : (recorded.configure {}).outcome = .ok (.sampling {
      chains := 2
      inits := .perChain [[("b", .int 1)], [("b", .int 2)]]
      silent := true }) := by cbv
  obtain ⟨jobs, serves⟩ := (configure_serves accepted).2.1 _ rfl
  refine ⟨_, jobs, accepted, serves, fun job mem second => ?_⟩
  have given := serves.given job mem
  rw [second] at given
  generalize job.inits = inits at given ⊢
  cases given with
  | listed element =>
    obtain rfl := Value.record.inj (Option.some.inj element)
    rfl

/-- An approximation for no chains with a record for each. -/
def noChains : RunArguments where
  algorithm := "meanfield"
  chains := some 0
  inits := .listed []

/-- It is accepted, and every engine ends it by looking for a record that is not there. -/
theorem noChains_not_found : ∃ config, (noChains.configure {}).outcome = .ok config ∧
    ∀ (engine : Engine) (executable : Executable) (data : BuildData) (w : Workspace),
      ((engine.dispatch executable data config).run w).1 = .error (.fault .outOfBounds) := by
  refine ⟨.variational { algorithm := "meanfield", inits := .perChain [], silent := true }, ?_, ?_⟩
  · rfl
  · intro engine executable data w
    rfl

end RunArguments

end Multilevel
