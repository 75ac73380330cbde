import Multilevel.Engine.Rehearsal
import Multilevel.Proofs.Engine.Executables
import Multilevel.Run.Dispatch

/-!
# Rehearsals are engines

A rehearsal answers in the same way whenever it is asked, and it has draws for all programs whose
data tell the sizes of their variables.
-/
namespace Multilevel.Rehearsal

/-- A rehearsal that is told to fail makes no executable. -/
theorem outcome_of_compileFailure {r : Rehearsal} {failure : EngineError}
    (own : r.compileFailure = some failure) (request : CompileRequest) (program : String)
    (found : Option Executable) :
    (r.engine.compile request program found).outcome = .error failure := by
  change (r.compile request program found).outcome = _
  rw [compile, own]

/-- Another rehearsal reuses an executable or makes it of the program. -/
theorem outcome_of_not_compileFailure {r : Rehearsal} (own : r.compileFailure = none)
    (request : CompileRequest) (program : String) (found : Option Executable) :
    (r.engine.compile request program found).outcome =
      .ok (found.getD (request.executableOf program)) := by
  change (r.compile request program found).outcome = _
  rw [compile, own]
  rfl

/-- Rehearsals are deterministic. -/
theorem isDeterministic (r : Rehearsal) : r.engine.IsDeterministic := by
  have sample (e e' : Executable) (same : e.program = e'.program) :
      r.engine.sample e = r.engine.sample e' := by
    funext data request
    change r.sample e data request = r.sample e' data request
    rw [Rehearsal.sample, Rehearsal.sample, same]
  have approximate (e e' : Executable) (same : e.program = e'.program) :
      r.engine.approximate e = r.engine.approximate e' := by
    funext data request
    change r.approximate e data request = r.approximate e' data request
    rw [Rehearsal.approximate, Rehearsal.approximate, same]
  cases own : r.compileFailure with
  | some failure =>
    have fails := outcome_of_compileFailure own
    exact ⟨⟨fun _ _ _ _ done => by simp [fails] at done, fun _ _ _ done => by
      simp [fails] at done⟩, fun _ _ _ _ _ _ _ done => by simp [fails] at done, sample,
      approximate⟩
  | none =>
    have makes := outcome_of_not_compileFailure own
    exact ⟨⟨fun _ _ _ _ done => (Except.ok.inj ((makes _ _ _).symm.trans done)).symm,
      fun _ _ _ done => (Except.ok.inj ((makes _ _ _).symm.trans done)).symm⟩,
      fun _ _ _ _ _ _ _ _ => ⟨_, makes _ _ _⟩, sample, approximate⟩

/-- Whether data tell the sizes of the variables of a program. -/
structure TellsSizes (data : BuildData) : Prop where
  coefficients : ∃ n, count data "K" = .ok n
  residuals : data.lookup "Kar" = none
  groups : ∀ i ∈ groups data,
    (∃ n, count data s!"M_{i}" = .ok n) ∧ ∃ n, count data s!"N_{i}" = .ok n

/-- The test whether data tell the sizes. -/
def tells (data : BuildData) : Bool :=
  (count data "K").isOk && (data.lookup "Kar").isNone &&
    (groups data).all fun i => (count data s!"M_{i}").isOk && (count data s!"N_{i}").isOk

/-- Data that pass the test tell the sizes. -/
theorem TellsSizes.of_tells {data : BuildData} (told : tells data = true) : TellsSizes data := by
  simp only [tells, Bool.and_eq_true, List.all_eq_true, Option.isNone_iff_eq_none] at told
  obtain ⟨⟨coefficients, residuals⟩, groups⟩ := told
  exact ⟨exists_of_isOk coefficients, residuals, fun i mem =>
    ⟨exists_of_isOk (groups i mem).1, exists_of_isOk (groups i mem).2⟩⟩

/-- The sizes of all variables are found in data that tell them. -/
theorem TellsSizes.exists_shapes {data : BuildData} (tells : TellsSizes data) (program : String)
    (surplus : Bool) : ∃ all, shapes program data surplus = .ok all := by
  obtain ⟨coefficients, counted⟩ := tells.coefficients
  have terms (i : Nat) (mem : i ∈ Rehearsal.groups data) :
      ∃ found, groupShapes program data i = .ok found := by
    obtain ⟨⟨effects, first⟩, levels, second⟩ := tells.groups i mem
    unfold groupShapes
    rw [first, second]
    exact ⟨_, rfl⟩
  have correlations (i : Nat) (mem : i ∈ Rehearsal.groups data) :
      ∃ found, correlationShapes program data i = .ok found := by
    obtain ⟨⟨effects, first⟩, _⟩ := tells.groups i mem
    unfold correlationShapes
    rw [first]
    split <;> exact ⟨_, rfl⟩
  obtain ⟨groupLevel, sized⟩ := exists_mapM_eq_ok terms
  obtain ⟨correlated, sized'⟩ := exists_mapM_eq_ok correlations
  unfold shapes
  rw [counted, tells.residuals]
  exact ⟨_, by rw [sized, sized']; rfl⟩

/-- A rehearsal that is not told to fail has draws of the chains that it is asked for. -/
theorem TellsSizes.exists_sample {data : BuildData} (tells : TellsSizes data) (e : Executable)
    (request : SampleRequest) : ∃ draws, (engine {}).sample e data request = .ok draws ∧
      draws.chains = request.numbers := by
  obtain ⟨all, sized⟩ := tells.exists_shapes e.program
    (request.numbers.any ([] : List Int).contains)
  change ∃ draws, posterior e.program data (request.numbers.any ([] : List Int).contains)
    request.seed request.numbers (keptOf request.iterations request.thinning.toInt) = .ok draws ∧ _
  unfold posterior
  rw [sized]
  exact ⟨_, rfl, rfl⟩

/-- A rehearsal that is not told to fail runs all chains of a valid configuration. -/
theorem TellsSizes.exists_dispatch {data : BuildData} (tells : TellsSizes data) {c : SamplingConfig}
    (valid : (RunConfig.sampling c).validate = .ok ()) (batch : c.strategy ≠ .futures)
    (plain : repeatedSetting? reservedSettings c.settings = none) (e : Executable) (w : Workspace) :
    ∃ draws w', ((engine {}).dispatch e data (.sampling c)).run w = (.ok draws, w') := by
  obtain ⟨draws, drawn, chains⟩ := tells.exists_sample e c.batchRequest
  have checked : (Work.check (RunConfig.sampling c).validate).run w = (.ok (), w) := by
    rw [Work.run_check, valid]
    rfl
  have sampled (v : Workspace) : (Work.check (((engine {}).sample e data c.batchRequest).mapError
      (Engine.failureOf .batch))).run v = (.ok draws, v) := by
    rw [Work.run_check, drawn]
    rfl
  have all : draws.chains = c.numbers := chains
  unfold Engine.dispatch
  rw [Work.run_bind_ok _ checked]
  dsimp only
  rw [if_neg batch, Engine.runBatch, plain]
  simp only [Option.isSome_none, Bool.false_eq_true, if_false]
  rw [Work.run_bind_ok _ (Work.run_note _ w), Work.run_bind_ok _ (sampled _),
    if_neg (by simp [all])]
  exact ⟨_, _, rfl⟩

end Multilevel.Rehearsal
