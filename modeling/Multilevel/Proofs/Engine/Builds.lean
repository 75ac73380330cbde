import Multilevel.Proofs.Engine.Rehearsal

/-!
# Sequences of builds

Programs are built one after the other, with any options, in any folders, some in vain. Every
executable that is stored meanwhile stands under the mark of the program and the options that it was
built with, so that a build finds no executable but its own (`BuildCall.builds_spec`).

Options are values under names, which are the same in any order; a truth value and a number are
different values.
-/
namespace Multilevel

/-- A call that builds a program. -/
structure BuildCall where
  arguments : BuildArguments
  engine : Engine

namespace BuildCall

/-- How a call ends, and the workspace afterwards. -/
def run (c : BuildCall) (w : Workspace) : Except Failure CompiledModel × Workspace :=
  (c.engine.build c.arguments).run w

/-- The workspace after calls, one after the other. -/
def runAll (calls : List BuildCall) (w : Workspace) : Workspace :=
  calls.foldl (fun w c => (c.run w).2) w

/-- The workspace after calls in two parts. -/
theorem runAll_append (before after : List BuildCall) (w : Workspace) :
    runAll (before ++ after) w = runAll after (runAll before w) := List.foldl_append

/-- Whether one of some calls returns a model. -/
structure Returned (calls : List BuildCall) (w : Workspace) (c : BuildCall) (start : Workspace)
    (model : CompiledModel) : Prop where
  /-- The call is one of them, made after those before it. -/
  made : ∃ before after, calls = before ++ c :: after ∧ start = runAll before w
  returned : (c.run start).1 = .ok model

/-- Whether the programs of calls that differ, or differ in options that matter, have different
marks. -/
def HasDistinctMarks (calls : List BuildCall) : Prop :=
  ∀ c ∈ calls, ∀ d ∈ calls, ∀ o p, BuildOptions.ofSettings c.arguments.settings = .ok o →
    BuildOptions.ofSettings d.arguments.settings = .ok p →
      o.mark c.arguments.source = p.mark d.arguments.source →
        c.arguments.source = d.arguments.source ∧ o.Agree p

/-- Whether every executable on a disk stands under the mark of one of some calls and was built as
that call asks for. -/
def Stored (calls : List BuildCall) (d : Disk) : Prop :=
  ∀ place e, d.file? place = some (.executable e) →
    ∃ c ∈ calls, ∃ o before, BuildOptions.ofSettings c.arguments.settings = .ok o ∧
      place.getLast? = some (String.ofList (before ++ '_' :: o.mark c.arguments.source)) ∧
        e.IsBuiltWith c.arguments.source o

variable {c d : BuildCall} {calls : List BuildCall} {w : Workspace}

/-- The file of the executable that a call asks for. -/
def executablePlace (c : BuildCall) (o : BuildOptions) (w : Workspace) : Path.Place :=
  Path.place (c.arguments.requestIn o (c.arguments.folderIn w)).executableFile

/-- What a call does: its arguments are refused before anything is asked of the engine, or one
executable is asked for. -/
theorem run_cases (reuses : c.engine.ReusesExecutables) (w : Workspace) :
    (∃ e, (c.run w).1 = .error e ∧ w.disk.Settles (c.run w).2.disk ∧
      (c.run w).2.calls = w.calls) ∨
    ∃ o between result, BuildOptions.ofSettings c.arguments.settings = .ok o ∧
      w.disk.Settles between.disk ∧ between.calls = w.calls ∧
      Engine.Gets c.engine (c.arguments.requestIn o (c.arguments.folderIn w))
        c.arguments.source between (c.run w).2 result ∧
      ∀ model, (c.run w).1 = .ok model → ∃ e lines, result = some e ∧
        model = Engine.builtFrom c.arguments o
          (c.arguments.requestIn o (c.arguments.folderIn w)) e lines := by
  have settles := Engine.settles_arrange c.arguments w
  have unheard := Engine.isUnheard_arrange c.arguments w
  unfold run
  rw [Engine.build_eq, Work.run_bind]
  cases arranged : (Engine.arrange c.arguments).run w with
  | mk outcome between =>
    rw [arranged] at settles unheard
    cases outcome with
    | error e => exact .inl ⟨e, rfl, settles, unheard⟩
    | ok plan =>
      obtain ⟨o, request⟩ := plan
      obtain ⟨valid, rfl, written⟩ := Engine.arrange_eq_ok arranged
      have gets := Engine.gets_captureExecutable reuses written c.arguments.settings.isEmpty false
      dsimp only
      rw [Work.run_bind]
      cases captured : (c.engine.captureExecutable
          (c.arguments.requestIn o (c.arguments.folderIn w)) c.arguments.settings.isEmpty
            false).run between with
      | mk outcome after =>
        rw [captured] at gets
        cases outcome with
        | error e => exact .inr ⟨o, between, _, valid, settles, unheard, gets, by simp⟩
        | ok answer =>
          refine .inr ⟨o, between, _, valid, settles, unheard, gets, fun model returned => ?_⟩
          exact ⟨answer.1, answer.2, rfl, (Except.ok.inj returned).symm⟩

/-- Nothing is taken away by a call. -/
theorem has_run (reuses : c.engine.ReusesExecutables) {place : Path.Place}
    (there : w.disk.has place = true) : (c.run w).2.disk.has place = true := by
  rcases run_cases reuses w with ⟨e, _, settles, _⟩ | ⟨o, between, result, _, settles, _, gets, _⟩
  · exact settles.present place there
  · have before := settles.present place there
    cases gets with
    | reused _ _ _ disk =>
      rw [disk]
      exact before
    | failed _ _ disk =>
      rw [disk]
      exact before
    | made _ _ _ written => exact Disk.has_write written before

/-- Every executable stays under the mark of a call, and every new one stands under that of its
own. -/
theorem stored_run (reuses : c.engine.ReusesExecutables) (mem : c ∈ calls)
    (stored : Stored calls w.disk) : Stored calls (c.run w).2.disk := by
  intro place e found
  rcases run_cases reuses w with
    ⟨_, _, settles, _⟩ | ⟨o, between, result, valid, settles, _, gets, _⟩
  · exact stored place e (settles.executables place e found)
  · cases gets with
    | reused _ _ _ disk => exact stored place e (settles.executables place e (disk ▸ found))
    | failed _ _ disk => exact stored place e (settles.executables place e (disk ▸ found))
    | made _ _ _ written =>
      rw [Disk.file?_write written] at found
      split at found
      · rename_i same
        obtain rfl := FileContent.executable.inj (Option.some.inj found)
        obtain ⟨before, name⟩ := o.getLast?_place_stem c.arguments.source
          (c.arguments.folderIn w)
        exact ⟨c, mem, o, before, valid, same ▸ name, rfl, .refl _, .refl _, .refl _⟩
      · exact stored place e (settles.executables place e found)

/-- What stands under the mark of a call was built as the call asks for. -/
theorem isBuiltWith_of_stored (distinct : HasDistinctMarks calls) (mem : c ∈ calls)
    (stored : Stored calls w.disk) {o : BuildOptions}
    (valid : BuildOptions.ofSettings c.arguments.settings = .ok o) {folder : String}
    {e : Executable} (found : w.disk.file?
      (Path.place (c.arguments.requestIn o folder).executableFile) = some (.executable e)) :
    e.IsBuiltWith c.arguments.source o := by
  obtain ⟨d, listed, p, before, valid', name, built⟩ := stored _ e found
  obtain ⟨before', name'⟩ := o.getLast?_place_stem c.arguments.source folder
  have marks := BuildOptions.mark_eq_of_name (name.symm.trans name')
  obtain ⟨source, agree⟩ := distinct d listed c mem p o valid' valid marks
  exact source ▸ agree.isBuiltWith built

/-- What a call that returns a model has done. -/
theorem returned_run (reuses : c.engine.ReusesExecutables) (distinct : HasDistinctMarks calls)
    (mem : c ∈ calls) (stored : Stored calls w.disk) {model : CompiledModel}
    (returned : (c.run w).1 = .ok model) :
    BuildOptions.ofSettings c.arguments.settings = .ok model.options ∧
      model.source = c.arguments.source ∧
      model.identity = model.options.identity c.arguments.source ∧
      (∃ e, model.handle = some e ∧ e.IsBuiltWith c.arguments.source model.options) ∧
      (c.run w).2.disk.has (c.executablePlace model.options w) = true := by
  rcases run_cases reuses w with
    ⟨e, failed, _⟩ | ⟨o, between, result, valid, settles, _, gets, own⟩
  · cases failed.symm.trans returned
  · obtain ⟨e, lines, rfl, rfl⟩ := own model returned
    refine ⟨valid, rfl, rfl, ⟨e, rfl, ?_⟩, ?_⟩
    · cases gets with
      | reused _ _ _ _ _ own =>
        rcases own e rfl with found | rfl
        · exact isBuiltWith_of_stored distinct mem stored valid
            (settles.executables _ e found)
        · exact ⟨rfl, .refl _, .refl _, .refl _⟩
      | made => exact ⟨rfl, .refl _, .refl _, .refl _⟩
    · cases gets with
      | reused there _ _ disk =>
        rw [disk]
        exact there
      | made _ _ _ written => exact Disk.has_of_write written

/-- If something stands at the file of its executable, a call that does not force it has nothing
made. -/
theorem calls_run_of_has (reuses : c.engine.ReusesExecutables) {o : BuildOptions}
    (valid : BuildOptions.ofSettings c.arguments.settings = .ok o) (unforced : o.force = false)
    (there : w.disk.has (c.executablePlace o w) = true) :
    ∃ asked, (c.run w).2.calls = w.calls ++ asked ∧
      ∀ call ∈ asked, ∃ request, call = .compile request true := by
  rcases run_cases reuses w with
    ⟨e, _, _, same⟩ | ⟨p, between, result, own, settles, calls, gets, _⟩
  · exact ⟨[], by rw [same, List.append_nil], by simp⟩
  · obtain rfl := Except.ok.inj (valid.symm.trans own)
    have before := settles.present _ there
    cases gets with
    | reused _ _ asked => exact ⟨_, calls ▸ asked, by simp⟩
    | failed needed => cases unforced.symm.trans (needed before)
    | made needed => cases unforced.symm.trans (needed before)

/-- Executables stay under the marks of calls. -/
theorem stored_runAll (reuses : ∀ c ∈ calls, c.engine.ReusesExecutables) {made : List BuildCall}
    (among : ∀ c ∈ made, c ∈ calls) (stored : Stored calls w.disk) :
    Stored calls (runAll made w).disk := by
  induction made generalizing w with
  | nil => exact stored
  | cons c rest ih =>
    have mem := among c List.mem_cons_self
    exact ih (fun later inside => among later (List.mem_cons_of_mem c inside))
      (stored_run (reuses c mem) mem stored)

/-- Nothing is taken away by calls. -/
theorem has_runAll (reuses : ∀ c ∈ calls, c.engine.ReusesExecutables) {place : Path.Place}
    (there : w.disk.has place = true) : (runAll calls w).disk.has place = true := by
  induction calls generalizing w with
  | nil => exact there
  | cons c rest ih =>
    exact ih (fun later mem => reuses later (List.mem_cons_of_mem c mem))
      (has_run (reuses c List.mem_cons_self) there)

/-- Calls for one program with options that agree, under one name in one folder, have one file for
their executables. -/
theorem executablePlace_eq {o p : BuildOptions} {v : Workspace}
    (source : c.arguments.source = d.arguments.source) (agree : o.Agree p)
    (name : o.modelName.level = p.modelName.level)
    (folder : Path.place (c.arguments.folderIn w) = Path.place (d.arguments.folderIn v)) :
    c.executablePlace o w = d.executablePlace p v := by
  have stem : o.stem (o.identity c.arguments.source) = p.stem (p.identity d.arguments.source) := by
    rw [BuildOptions.stem, BuildOptions.stem, source, agree.identity_eq, name]
  rw [executablePlace, executablePlace, BuildArguments.requestIn, BuildArguments.requestIn, stem]
  exact Path.place_join_congr folder _

/-- However many programs are built, with whatever options and whatever comes of each build: a model
that is returned has an executable of its own program built with its own options; two models are the
same exactly if their programs are equal and their options agree; and a program that was built in a
folder under some name is not compiled there again, unless that is forced. -/
theorem builds_spec (fresh : ∀ place e, w.disk.file? place ≠ some (.executable e))
    (reuses : ∀ c ∈ calls, c.engine.ReusesExecutables) (distinct : HasDistinctMarks calls) :
    (∀ c start model, Returned calls w c start model →
      model.source = c.arguments.source ∧
      BuildOptions.ofSettings c.arguments.settings = .ok model.options ∧
      ∃ e, model.handle = some e ∧ e.IsBuiltWith model.source model.options) ∧
    (∀ c start model d later other, Returned calls w c start model →
      Returned calls w d later other →
        (model.same other = true ↔
          model.source = other.source ∧ model.options.Agree other.options)) ∧
    ∀ (before between after : List BuildCall) (c d : BuildCall) (model : CompiledModel)
        (o : BuildOptions), calls = before ++ c :: (between ++ d :: after) →
      let start := runAll before w
      let later := runAll (before ++ c :: between) w
      (c.run start).1 = .ok model →
      BuildOptions.ofSettings d.arguments.settings = .ok o → o.force = false →
      d.arguments.source = model.source → o.Agree model.options →
      o.modelName.level = model.options.modelName.level →
      Path.place (d.arguments.folderIn later) = Path.place (c.arguments.folderIn start) →
      ∃ asked, (d.run later).2.calls = later.calls ++ asked ∧
        ∀ call ∈ asked, ∃ request, call = .compile request true := by
  have stored : Stored calls w.disk := fun place e found => absurd found (fresh place e)
  have done (c : BuildCall) (start : Workspace) (model : CompiledModel)
      (returned : Returned calls w c start model) :
      c ∈ calls ∧ BuildOptions.ofSettings c.arguments.settings = .ok model.options ∧
        model.source = c.arguments.source ∧
        model.identity = model.options.identity c.arguments.source ∧
        (∃ e, model.handle = some e ∧ e.IsBuiltWith c.arguments.source model.options) ∧
        (c.run start).2.disk.has (c.executablePlace model.options start) = true := by
    obtain ⟨⟨before, after, split, rfl⟩, ended⟩ := returned
    have mem : c ∈ calls := by simp [split]
    have sound : Stored calls (runAll before w).disk :=
      stored_runAll reuses (fun earlier inside => by simp [split, inside]) stored
    exact ⟨mem, returned_run (reuses c mem) distinct mem sound ended⟩
  refine ⟨fun c start model returned => ?_, fun c start model d later other one two => ?_, ?_⟩
  · obtain ⟨_, valid, source, _, built, _⟩ := done c start model returned
    exact ⟨source, valid, source ▸ built⟩
  · obtain ⟨mem, valid, source, identity, _⟩ := done c start model one
    obtain ⟨mem', valid', source', identity', _⟩ := done d later other two
    rw [CompiledModel.same, beq_iff_eq, identity, identity', source, source']
    constructor
    · intro same
      exact distinct c mem d mem' _ _ valid valid'
        (by rw [BuildOptions.mark, BuildOptions.mark, same])
    · rintro ⟨same, agree⟩
      rw [same, agree.identity_eq]
  · intro before between after c d model o split start later ended valid unforced source agree name
      folder
    have split' : calls = (before ++ c :: between) ++ d :: after := by simp [split]
    obtain ⟨mem, _, own, _, _, there⟩ := done c start model ⟨⟨before, _, split, rfl⟩, ended⟩
    have still : later.disk.has (c.executablePlace model.options start) = true := by
      have parts : later = runAll between (c.run start).2 := runAll_append before (c :: between) w
      rw [parts]
      exact has_runAll (fun c inside => reuses c (by simp [split, inside])) there
    have place : d.executablePlace o later = c.executablePlace model.options start :=
      executablePlace_eq (source.trans own) agree name folder
    have mem' : d ∈ calls := by simp [split]
    have there' : later.disk.has (d.executablePlace o later) = true := by
      rw [place]
      exact still
    exact calls_run_of_has (reuses d mem') valid unforced there'

/-- What is left of a build when its options and the identity of its program are known. -/
def buildNamed (c : BuildCall) (o : BuildOptions) (identity : String) : Work CompiledModel := do
  let folder ← Engine.buildFolder c.arguments.folder c.arguments.keep
  Work.makeFolders folder
  let programFile := Path.join folder (o.stem identity ++ ".stan")
  let executableFile := Path.join folder (o.stem identity)
  Engine.writeProgram programFile c.arguments.source
  let request := ⟨programFile, executableFile, o.force, o.translator, o.compiler, o.header⟩
  let (executable, lines) ← c.engine.captureExecutable request c.arguments.settings.isEmpty false
  return ⟨identity, c.arguments.source, programFile, executableFile, lines, o, some executable⟩

/-- A build with known options and a known identity. -/
theorem run_eq_buildNamed {o : BuildOptions} {identity : String}
    (valid : BuildOptions.ofSettings c.arguments.settings = .ok o)
    (own : o.identity c.arguments.source = identity) (w : Workspace) :
    c.run w = (c.buildNamed o identity).run w := by
  have checked : (liftM (BuildOptions.ofSettings c.arguments.settings) : Work _).run w =
      (.ok o, w) := by
    rw [valid]
    rfl
  unfold run Engine.build
  rw [Work.run_bind_ok _ checked]
  simp only [own]
  rfl

/-- The options of a build with some options of the compiler. -/
def compilerOptions (compiler : Settings) : BuildOptions :=
  ⟨BuildOptions.standardTranslator, compiler, .null, false, .text "model"⟩

/-- A build of a program with some options of the compiler. -/
def compilerBuild (source : String) (compiler : Settings) : BuildCall :=
  ⟨{ source, settings := [("cpp_options", .record compiler)], folder := some "models" },
    Rehearsal.engine {}⟩

/-- Options of the compiler are completed by standard ones. -/
theorem ofSettings_compilerBuild (source : String) {compiler : Settings}
    (some : compiler.isEmpty = false) :
    BuildOptions.ofSettings (compilerBuild source compiler).arguments.settings =
      .ok (compilerOptions compiler) := by
  have known : ((compilerBuild source compiler).arguments.settings.map Prod.fst).filter
      (fun name => !BuildOptions.names.contains name) = [] := by
    change ["cpp_options"].filter (fun name => !BuildOptions.names.contains name) = []
    decide
  rw [BuildOptions.ofSettings, known, List.mergeSort_nil]
  cases compiler with
  | nil => cases some
  | cons => rfl

/-- Two options of the compiler. -/
def threads : Settings := [("OPENCL", .bool false), ("THREADS", .bool true)]

/-- One option of the compiler. -/
def checks : Settings := [("CHECKS", .bool true)]

/-- The identities of two programs. -/
theorem identity_sample :
    (compilerOptions threads).identity "model { }" =
        "ebb6142727233824ec171e460285e54d80b1775bd6c289e80158c940d25dcbae" ∧
      (compilerOptions checks).identity "data { }" =
        "7937a49f381c3b5873d0c9371925e1f344af935134a01cf321fce39388d6e89e" := by
  have sorted : threads.Pairwise fun a b => a.1 ≤ b.1 := by simp [threads]
  constructor <;>
    rw [BuildOptions.identity, Digest.identity, Digest.identityBytes,
      BuildOptions.canonical_effective] <;>
    simp only [compilerOptions, List.map_cons, List.map_nil,
      Value.canonical_record_of_sorted sorted] <;>
    decide +kernel

/-- The order of options does not matter. -/
theorem agree_sample : (compilerOptions threads.reverse).Agree (compilerOptions threads) :=
  ⟨.refl _, Value.agrees_of_perm (by decide) (List.reverse_perm _), .refl _⟩

/-- A program. -/
def threadedBuild : BuildCall := compilerBuild "model { }" threads

/-- Another program. -/
def checkedBuild : BuildCall := compilerBuild "data { }" checks

/-- The first program, with its options in another order. -/
def repeatedBuild : BuildCall := compilerBuild "model { }" threads.reverse

/-- The three builds. -/
def sampleBuilds : List BuildCall := [threadedBuild, checkedBuild, repeatedBuild]

/-- The three programs are built one after the other. -/
theorem returned_sample :
    (threadedBuild.run {}).1.isOk = true ∧
      (checkedBuild.run (runAll [threadedBuild] {})).1.isOk = true ∧
      (repeatedBuild.run (runAll [threadedBuild, checkedBuild] {})).1.isOk = true := by
  have first := run_eq_buildNamed (ofSettings_compilerBuild "model { }" rfl) identity_sample.1
  have other := run_eq_buildNamed (ofSettings_compilerBuild "data { }" rfl) identity_sample.2
  have last := run_eq_buildNamed (ofSettings_compilerBuild "model { }" rfl)
    ((agree_sample.identity_eq "model { }").trans identity_sample.1)
  simp only [runAll, List.foldl_cons, List.foldl_nil, threadedBuild, checkedBuild, repeatedBuild,
    first, other, last]
  refine ⟨?_, ?_, ?_⟩ <;> decide +kernel

/-- The two programs have different marks. -/
theorem hasDistinctMarks_sample : HasDistinctMarks sampleBuilds := by
  have marks : (compilerOptions threads).mark "model { }" ≠
      (compilerOptions checks).mark "data { }" := by
    rw [BuildOptions.mark, BuildOptions.mark, identity_sample.1, identity_sample.2]
    decide
  have known (c : BuildCall) (mem : c ∈ sampleBuilds) (o : BuildOptions)
      (valid : BuildOptions.ofSettings c.arguments.settings = .ok o) :
      c.arguments.source = "model { }" ∧ o.Agree (compilerOptions threads) ∨
        c.arguments.source = "data { }" ∧ o.Agree (compilerOptions checks) := by
    simp only [sampleBuilds, List.mem_cons, List.not_mem_nil, or_false] at mem
    rcases mem with rfl | rfl | rfl
    · obtain rfl := Except.ok.inj ((ofSettings_compilerBuild _ rfl).symm.trans valid)
      exact .inl ⟨rfl, .refl _⟩
    · obtain rfl := Except.ok.inj ((ofSettings_compilerBuild _ rfl).symm.trans valid)
      exact .inr ⟨rfl, .refl _⟩
    · obtain rfl := Except.ok.inj ((ofSettings_compilerBuild _ rfl).symm.trans valid)
      exact .inl ⟨rfl, agree_sample⟩
  intro c inC d inD o p validC validD same
  rcases known c inC o validC with ⟨own, agree⟩ | ⟨own, agree⟩ <;>
    rcases known d inD p validD with ⟨own', agree'⟩ | ⟨own', agree'⟩ <;>
    rw [own, own', agree.mark_eq, agree'.mark_eq] at same
  · exact ⟨own.trans own'.symm, agree.trans agree'.symm⟩
  · exact absurd same marks
  · exact absurd same.symm marks
  · exact ⟨own.trans own'.symm, agree.trans agree'.symm⟩

/-- Of three programs that were built one after the other the first and the last are the same model,
the second is not, and the last one is not compiled again. -/
theorem sample_builds : ∃ first other last : CompiledModel,
    (threadedBuild.run {}).1 = .ok first ∧
    (checkedBuild.run (runAll [threadedBuild] {})).1 = .ok other ∧
    (repeatedBuild.run (runAll [threadedBuild, checkedBuild] {})).1 = .ok last ∧
    (∃ e, last.handle = some e ∧ e.IsBuiltWith last.source last.options) ∧
    first.same last = true ∧ first.same other = false ∧
    ∃ asked, (repeatedBuild.run (runAll [threadedBuild, checkedBuild] {})).2.calls =
        (runAll [threadedBuild, checkedBuild] {}).calls ++ asked ∧
      ∀ call ∈ asked, ∃ request, call = .compile request true := by
  have reuses : ∀ c ∈ sampleBuilds, c.engine.ReusesExecutables := by
    intro c mem
    simp only [sampleBuilds, List.mem_cons, List.not_mem_nil, or_false] at mem
    rcases mem with rfl | rfl | rfl <;> exact (Rehearsal.isDeterministic {}).reuses
  have fresh : ∀ place e, ({} : Workspace).disk.file? place ≠ some (.executable e) := by
    intro place e
    rw [Disk.file?_empty]
    simp
  obtain ⟨hasFirst, hasOther, hasLast⟩ := returned_sample
  obtain ⟨first, one⟩ := exists_of_isOk hasFirst
  obtain ⟨other, two⟩ := exists_of_isOk hasOther
  obtain ⟨last, three⟩ := exists_of_isOk hasLast
  obtain ⟨built, same, unforced⟩ := builds_spec fresh reuses hasDistinctMarks_sample
  have returned : Returned sampleBuilds {} threadedBuild _ first := ⟨⟨[], _, rfl, rfl⟩, one⟩
  have returned' : Returned sampleBuilds {} checkedBuild _ other :=
    ⟨⟨[threadedBuild], _, rfl, rfl⟩, two⟩
  have returned'' : Returned sampleBuilds {} repeatedBuild _ last :=
    ⟨⟨[threadedBuild, checkedBuild], _, rfl, rfl⟩, three⟩
  obtain ⟨source, options, _⟩ := built _ _ _ returned
  obtain ⟨source', _, _⟩ := built _ _ _ returned'
  obtain ⟨source'', options'', handle⟩ := built _ _ _ returned''
  have own : first.options = compilerOptions threads :=
    Except.ok.inj (options.symm.trans (ofSettings_compilerBuild _ rfl))
  have own'' : last.options = compilerOptions threads.reverse :=
    Except.ok.inj (options''.symm.trans (ofSettings_compilerBuild _ rfl))
  have agree : last.options.Agree first.options := by
    rw [own, own'']
    exact agree_sample
  refine ⟨first, other, last, one, two, three, handle, ?_, ?_, ?_⟩
  · exact (same _ _ _ _ _ _ returned returned'').mpr ⟨source.trans source''.symm, agree.symm⟩
  · refine Bool.eq_false_iff.mpr fun equal => ?_
    have wrong := ((same _ _ _ _ _ _ returned returned').mp equal).1
    rw [source, source'] at wrong
    exact absurd wrong (by decide)
  · have named : last.options.modelName.level = first.options.modelName.level := by
      rw [own, own'']
      rfl
    exact unforced [] [checkedBuild] [] threadedBuild repeatedBuild first last.options rfl one
      options'' (by rw [own'']; rfl) source.symm agree named rfl

end BuildCall

end Multilevel
