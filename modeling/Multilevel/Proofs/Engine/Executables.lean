import Multilevel.Proofs.Engine.Answer
import Multilevel.Proofs.Fit.Plan
import Multilevel.Proofs.Store.Settles
import Multilevel.Proofs.Value.Decoding

/-!
# How an executable is found or made

The file of an executable has a name that ends in the first characters of the identity of its
program and options. When an executable is asked for, what stands at its file is reused unless that
is forced off; otherwise it is made of the text in the program's file and stored, or nothing is
stored (`Engine.gets_captureExecutable`).
-/
namespace Multilevel

/-- The executable that is made of the text of a program as a request asks for it. -/
def CompileRequest.executableOf (request : CompileRequest) (program : String) : Executable :=
  ⟨program, request.translator, request.compiler, request.header⟩

/-- Whether two options agree in all that matters to the executable, up to the order of keys. -/
structure BuildOptions.Agree (o p : BuildOptions) : Prop where
  translator : Value.Agrees (.record o.translator) (.record p.translator)
  compiler : Value.Agrees (.record o.compiler) (.record p.compiler)
  header : Value.Agrees o.header p.header

/-- Whether an executable runs a program that was built with some options. -/
structure Executable.IsBuiltWith (e : Executable) (source : String) (o : BuildOptions) : Prop where
  program : e.program = source
  translator : Value.Agrees (.record e.translator) (.record o.translator)
  compiler : Value.Agrees (.record e.compiler) (.record o.compiler)
  header : Value.Agrees e.header o.header

namespace BuildOptions

variable {o p : BuildOptions} {source other : String}

/-- Options agree with themselves. -/
theorem Agree.refl (o : BuildOptions) : o.Agree o := ⟨.refl _, .refl _, .refl _⟩

/-- Agreement of options goes both ways. -/
theorem Agree.symm (same : o.Agree p) : p.Agree o :=
  ⟨same.translator.symm, same.compiler.symm, same.header.symm⟩

/-- Options that agree with some options agree. -/
theorem Agree.trans {q : BuildOptions} (first : o.Agree p) (second : p.Agree q) : o.Agree q :=
  ⟨first.translator.trans second.translator, first.compiler.trans second.compiler,
    first.header.trans second.header⟩

/-- The names of the options that matter stand in order in their canonical text. -/
theorem canonical_effective (o : BuildOptions) : (Value.record o.effective).canonical =
    "\x7b" ++ ",".intercalate ([("cpp_options", Value.record o.compiler),
      ("stanc_options", .record o.translator), ("user_header", o.header)].map fun field =>
        Value.canonicalText field.1 ++ ":" ++ field.2.canonical) ++ "\x7d" := by
  have perm : o.effective.Perm [("cpp_options", .record o.compiler),
      ("stanc_options", .record o.translator), ("user_header", o.header)] := List.Perm.swap _ _ _
  have names : o.effective.map Prod.fst = ["stanc_options", "cpp_options", "user_header"] := rfl
  have distinct : (o.effective.map Prod.fst).Nodup := by
    rw [names]
    decide
  rw [Value.canonical_congr (Value.agrees_of_perm distinct perm), Value.canonical_record_of_sorted]
  simp

/-- A program has one identity with all options that agree. -/
theorem Agree.identity_eq (same : o.Agree p) (source : String) :
    o.identity source = p.identity source := by
  have one : (Value.record o.effective).canonical = (Value.record p.effective).canonical := by
    rw [canonical_effective, canonical_effective]
    simp only [List.map_cons, List.map_nil, Value.canonical_congr same.translator,
      Value.canonical_congr same.compiler, Value.canonical_congr same.header]
  rw [identity, identity, Digest.identity, Digest.identity, Digest.identityBytes,
    Digest.identityBytes, one]

/-- An executable is built with all options that agree. -/
theorem Agree.isBuiltWith (same : o.Agree p) {e : Executable} (built : e.IsBuiltWith source o) :
    e.IsBuiltWith source p :=
  ⟨built.program, built.translator.trans same.translator, built.compiler.trans same.compiler,
    built.header.trans same.header⟩

/-- The characters of the identity of a program that the names of its files hold. -/
def mark (o : BuildOptions) (source : String) : List Char :=
  (o.identity source).toList.take identityPrefixLength

/-- What the names of the files hold are hexadecimal digits. -/
theorem mem_hexDigits_of_mem_mark {c : Char} (mem : c ∈ o.mark source) :
    c ∈ Digest.hexDigits := by
  rw [mark, identity, Digest.identity] at mem
  exact Digest.mem_hexDigits_of_mem_sha256 (List.mem_of_mem_take mem)

/-- A program has one mark with all options that agree. -/
theorem Agree.mark_eq (same : o.Agree p) (source : String) : o.mark source = p.mark source := by
  rw [mark, mark, same.identity_eq]

/-- The file of an executable has a name that ends in the mark of its program. -/
theorem getLast?_place_stem (o : BuildOptions) (source folder : String) :
    ∃ before, (Path.place (Path.join folder (o.stem (o.identity source)))).getLast? =
      some (String.ofList (before ++ '_' :: o.mark source)) := by
  obtain ⟨front, path⟩ := Path.exists_join folder (o.stem (o.identity source))
  have ends : (Path.join folder (o.stem (o.identity source))).toList =
      (front ++ o.modelName.level.toList) ++ '_' :: o.mark source := by
    rw [path, stem, String.toList_append, String.toList_append, String.toList_ofList, mark]
    simp
  refine Path.getLast?_place ends (fun slash => ?_) ⟨'_', List.mem_cons_self, by decide⟩
  rcases List.mem_cons.mp slash with line | digit
  · exact absurd line (by decide)
  · exact absurd (mem_hexDigits_of_mem_mark digit) (by decide)

/-- Names that are equal end in equal marks. -/
theorem mark_eq_of_name {before before' : List Char} (same : some (String.ofList
    (before ++ '_' :: o.mark source)) = some (String.ofList (before' ++ '_' :: p.mark other))) :
    o.mark source = p.mark other := by
  have digits (o : BuildOptions) (source : String) :
      ∀ c ∈ (o.mark source).reverse, decide (c ≠ '_') = true := by
    intro c mem
    have hex := mem_hexDigits_of_mem_mark (List.mem_reverse.mp mem)
    exact decide_eq_true fun line => absurd (line ▸ hex) (by decide)
  have chars : before ++ '_' :: o.mark source = before' ++ '_' :: p.mark other :=
    String.ofList_inj.mp (Option.some.inj same)
  have back := congrArg (fun name => name.reverse.takeWhile fun c => decide (c ≠ '_')) chars
  have mark_of (o : BuildOptions) (source : String) (before : List Char) :
      (before ++ '_' :: o.mark source).reverse.takeWhile (fun c => decide (c ≠ '_')) =
        (o.mark source).reverse := by
    rw [List.reverse_append, List.reverse_cons, List.append_assoc,
      List.takeWhile_append_of_pos (digits o source)]
    simp
  simp only [mark_of] at back
  exact List.reverse_injective back

end BuildOptions

namespace BuildArguments

/-- The folder that a build uses. -/
def folderIn (a : BuildArguments) (w : Workspace) : String :=
  if a.keep then a.folder.getD (Path.join w.home ".cache/hierstan") else s!"/tmp/{w.temporaries}"

/-- The request of a build in a folder. -/
def requestIn (a : BuildArguments) (o : BuildOptions) (folder : String) : CompileRequest :=
  ⟨Path.join folder (o.stem (o.identity a.source) ++ ".stan"),
    Path.join folder (o.stem (o.identity a.source)), o.force, o.translator, o.compiler, o.header⟩

end BuildArguments

/-- Whether an engine reuses the executable that it is given, and makes an executable of the text
and the options that it is given otherwise. It may fail at either. -/
structure Engine.ReusesExecutables (engine : Engine) : Prop where
  reused : ∀ request program found e,
    (engine.compile request program (some found)).outcome = .ok e → e = found
  made : ∀ request program e,
    (engine.compile request program none).outcome = .ok e → e = request.executableOf program

/-- Whether an engine tells programs apart and nothing else: whether an executable can be made
depends on the program and the options, and what is drawn from an executable on its program. -/
structure Engine.IsDeterministic (engine : Engine) : Prop where
  reuses : engine.ReusesExecutables
  compiles : ∀ (request other : CompileRequest) program found found' e,
    request.executableOf program = other.executableOf program →
      (engine.compile request program found).outcome = .ok e →
        ∃ e', (engine.compile other program found').outcome = .ok e'
  sample : ∀ e e' : Executable, e.program = e'.program → engine.sample e = engine.sample e'
  approximate : ∀ e e' : Executable, e.program = e'.program →
    engine.approximate e = engine.approximate e'

namespace Engine

variable {engine : Engine} {request : CompileRequest} {source : String} {w w' : Workspace}

/-- What comes of asking for an executable of a program: the workspace that the work leaves, and the
executable that it ends with, if any. -/
inductive Gets (engine : Engine) (request : CompileRequest) (source : String)
    (w w' : Workspace) : Option Executable → Prop
  /-- What stands at the file is reused, unless the engine fails. -/
  | reused {result : Option Executable}
      (there : w.disk.has (Path.place request.executableFile) = true)
      (unforced : request.force = false)
      (calls : w'.calls = w.calls ++ [.compile request true]) (disk : w'.disk = w.disk)
      (answer : ∃ found, result = (engine.compile request source (some found)).outcome.toOption)
      (own : ∀ e, result = some e →
        w.disk.file? (Path.place request.executableFile) = some (.executable e) ∨
          e = request.executableOf source) :
      Gets engine request source w w' result
  /-- No executable is made, or it cannot be stored. -/
  | failed
      (needed : w.disk.has (Path.place request.executableFile) = true → request.force = true)
      (calls : w'.calls = w.calls ++ [.compile request false]) (disk : w'.disk = w.disk)
      (reason : (∃ e, (engine.compile request source none).outcome = .error e) ∨
        ∃ content e, w.disk.write (Path.place request.executableFile) content = .error e) :
      Gets engine request source w w' none
  /-- An executable is made of the program and stored. -/
  | made
      (needed : w.disk.has (Path.place request.executableFile) = true → request.force = true)
      (calls : w'.calls = w.calls ++ [.compile request false])
      (answer : (engine.compile request source none).outcome =
        .ok (request.executableOf source))
      (written : w.disk.write (Path.place request.executableFile)
        (.executable (request.executableOf source)) = .ok w'.disk) :
      Gets engine request source w w' (some (request.executableOf source))

/-- What comes of asking for an executable is told by the files and the requests alone. -/
theorem Gets.with_log {result : Option Executable} (gets : Gets engine request source w w' result)
    (before after : LogState) :
    Gets engine request source { w with log := before } { w' with log := after } result := by
  cases gets with
  | reused there unforced calls disk answer own =>
    exact .reused there unforced calls disk answer own
  | failed needed calls disk reason => exact .failed needed calls disk reason
  | made needed calls answer written => exact .made needed calls answer written

/-- An executable that work ends with is one that the engine answered with. -/
theorem Gets.compiled {e : Executable} (gets : Gets engine request source w w' (some e)) :
    ∃ found, (engine.compile request source found).outcome = .ok e := by
  cases gets with
  | reused _ _ _ _ answer _ =>
    obtain ⟨found, answer⟩ := answer
    refine ⟨some found, ?_⟩
    generalize (engine.compile request source (some found)).outcome = outcome at answer
    cases outcome with
    | error => cases answer
    | ok own => rw [Option.some.inj answer]
  | made _ _ answer _ => exact ⟨none, answer⟩

/-- An executable that work ends with runs the program if one that was there did. -/
theorem Gets.program_eq {e : Executable} (gets : Gets engine request source w w' (some e))
    (sound : ∀ e, w.disk.file? (Path.place request.executableFile) = some (.executable e) →
      e.program = source) : e.program = source := by
  cases gets with
  | reused _ _ _ _ _ own =>
    rcases own e rfl with stored | made
    · exact sound e stored
    · rw [made]
      rfl
  | made => rfl

/-- Something is found exactly if anything stands at the file of the executable: what was stored
there, or what the request would make. -/
theorem executableOn_spec (d : Disk) (request : CompileRequest) :
    (executableOn d request).isSome = d.has (Path.place request.executableFile) ∧
      ∀ e, executableOn d request = some e →
        d.file? (Path.place request.executableFile) = some (.executable e) ∨
          e = request.executableOf (programOn d request.programFile) := by
  rw [executableOn, Disk.has, Disk.file?]
  cases d.find? (Path.place request.executableFile) with
  | none => exact ⟨rfl, fun e found => absurd found (by simp)⟩
  | some entry =>
    cases entry with
    | folder => exact ⟨rfl, fun e found => .inr (Option.some.inj found).symm⟩
    | file content =>
      cases content with
      | executable own => exact ⟨rfl, fun e found => .inl (by rw [Option.some.inj found])⟩
      | text | fit | object =>
        exact ⟨rfl, fun e found => .inr (Option.some.inj found).symm⟩

/-- What comes of having the engine make an executable. -/
theorem gets_makeExecutable (reuses : engine.ReusesExecutables)
    (written : w.disk.file? (Path.place request.programFile) = some (.text source)) :
    Gets engine request source w ((engine.makeExecutable request).run w).2
      (((engine.makeExecutable request).run w).1.toOption.bind Except.toOption) := by
  have program : programOn w.disk request.programFile = source := by rw [programOn, written]
  obtain ⟨some, own⟩ := executableOn_spec w.disk request
  unfold makeExecutable
  rw [Work.run_bind_ok _ (run_programAt _ w), Work.run_bind_ok _ (run_executableAt? request w)]
  generalize executableOn w.disk request = found at some own ⊢
  rw [program] at own ⊢
  dsimp only
  rw [Work.run_bind_ok _ (Work.run_note _ w)]
  cases reused : found.isSome && !request.force with
  | true =>
    rw [Bool.and_eq_true, Bool.not_eq_true'] at reused
    obtain ⟨there, unforced⟩ := reused
    obtain ⟨e, rfl⟩ := Option.isSome_iff_exists.mp there
    rw [if_pos rfl]
    cases answer : (engine.compile request source (.some e)).outcome with
    | error failure =>
      refine .reused (some ▸ there) unforced rfl rfl ⟨e, ?_⟩ fun e' ended =>
        absurd ended (Option.some_ne_none e').symm
      rw [answer]
      rfl
    | ok e' =>
      obtain rfl := reuses.reused _ _ _ _ answer
      refine .reused (some ▸ there) unforced rfl rfl ⟨e', ?_⟩ fun e same => own e same
      rw [answer]
      rfl
  | false =>
    have needed : w.disk.has (Path.place request.executableFile) = true →
        request.force = true := by
      rw [← some]
      intro there
      simpa [there] using reused
    rw [if_neg (by simp)]
    cases answer : (engine.compile request source none).outcome with
    | error failure => exact .failed needed rfl rfl (.inl ⟨failure, answer⟩)
    | ok e =>
      obtain rfl := reuses.made _ _ _ answer
      let logged : Workspace := { w with
        calls := w.calls ++ [.compile request false]
        log := w.log.writeAll (engine.compile request source none).log }
      have listened : (Work.writeLog (engine.compile request source none).log).run
          { w with calls := w.calls ++ [.compile request false] } = (.ok (), logged) := rfl
      rw [Work.run_bind_ok _ listened]
      simp only [Bool.not_false, if_true]
      rw [Work.run_bind, Work.run_write, show logged.disk = w.disk from rfl]
      cases stored : w.disk.write (Path.place request.executableFile)
          (.executable (request.executableOf source)) with
      | error e => exact .failed needed rfl rfl (.inr ⟨_, e, stored⟩)
      | ok disk => exact .made needed rfl answer stored

/-- What comes of having the engine make an executable and listening to it. -/
theorem gets_captureExecutable (reuses : engine.ReusesExecutables)
    (written : w.disk.file? (Path.place request.programFile) = some (.text source))
    (silent reloading : Bool) :
    Gets engine request source w ((engine.captureExecutable request silent reloading).run w).2
      (((engine.captureExecutable request silent reloading).run w).1.toOption.map Prod.fst) := by
  have made : Gets engine request source { w with log := (w.log.openCapture silent).2 } _ _ :=
    gets_makeExecutable reuses written
  unfold captureExecutable
  rw [Work.run_bind_ok _ (Work.run_capture silent _ w)]
  dsimp only
  generalize (engine.makeExecutable request).run
    { w with log := (w.log.openCapture silent).2 } = ended at made ⊢
  obtain ⟨outcome, after⟩ := ended
  have own := made.with_log w.log (after.log.closeCapture (w.log.openCapture silent).1)
  cases outcome with
  | error failure => exact own
  | ok answer =>
    cases answer with
    | ok e => exact own
    | error e =>
      rw [Work.run_bind_ok _ (Work.run_check _ _)]
      dsimp only
      split <;> exact own

/-- Writing a program takes nothing away and stores no executable. -/
theorem settles_writeProgram (path source : String) : (writeProgram path source).Settles := by
  refine Work.Settles.bind (.of_same fun _ => rfl) fun found => ?_
  split
  · split
    · exact Work.settles_write _ _
    · exact Work.settles_pure _
  · exact Work.settles_write _ _

/-- Arranging a build takes nothing away and stores no executable. -/
theorem settles_arrange (a : BuildArguments) : (arrange a).Settles := by
  have folder : (buildFolder a.folder a.keep).Settles := by
    unfold buildFolder
    split
    · exact Work.Settles.bind (.of_same fun _ => rfl) fun _ => Work.settles_makeTemporary
    · split
      · exact Work.settles_pure _
      · exact Work.Settles.bind (.of_same fun _ => rfl) fun _ => Work.settles_pure _
  refine Work.Settles.bind (.of_same fun w => ?_) fun options => folder.bind fun folder =>
    (Work.settles_makeFolders _).bind fun _ => (settles_writeProgram _ _).bind fun _ =>
      Work.settles_pure _
  exact congrArg _ (congrArg Prod.snd (Work.run_check _ w))

/-- A program that was written stands in its file. -/
theorem file?_of_writeProgram {path : String}
    (done : (writeProgram path source).run w = (.ok (), w')) :
    w'.disk.file? (Path.place path) = some (.text source) := by
  have looked : (Work.file? path).run w = (.ok (w.disk.file? (Path.place path)), w) := rfl
  have written (ended : (Work.write path (.text source)).run w = (.ok (), w')) :
      w'.disk.file? (Path.place path) = some (.text source) := by
    rw [Work.run_write] at ended
    split at ended
    · rename_i disk stored
      obtain ⟨_, rfl⟩ := Prod.mk.inj ended
      exact (Disk.file?_write stored _).trans (if_pos rfl)
    · cases (Prod.mk.inj ended).1
  unfold writeProgram at done
  rw [Work.run_bind_ok _ looked] at done
  split at done
  · rename_i found there
    split at done
    · exact written done
    · rename_i same
      obtain ⟨_, rfl⟩ := Prod.mk.inj done
      rw [there]
      simpa using same
  · exact written done

/-- The folder of a build. -/
theorem folderIn_of_buildFolder {a : BuildArguments} {folder : String}
    (done : (buildFolder a.folder a.keep).run w = (.ok folder, w')) : folder = a.folderIn w := by
  unfold buildFolder at done
  rw [BuildArguments.folderIn]
  cases kept : a.keep with
  | true =>
    rw [kept] at done
    cases given : a.folder with
    | some own =>
      rw [given] at done
      exact (Except.ok.inj (Prod.mk.inj done).1).symm
    | none =>
      rw [given] at done
      exact (Except.ok.inj (Prod.mk.inj done).1).symm
  | false =>
    rw [kept] at done
    obtain ⟨_, warned, first, rest⟩ := Work.run_bind_eq_ok done
    obtain ⟨number, counted, looked, made⟩ := Work.run_bind_eq_ok rest
    obtain ⟨_, _, _, made⟩ := Work.run_bind_eq_ok made
    obtain ⟨_, _, _, returned⟩ := Work.run_bind_eq_ok made
    obtain ⟨_, rfl⟩ := Prod.mk.inj first
    obtain ⟨same, rfl⟩ := Prod.mk.inj looked
    obtain rfl := Except.ok.inj same
    exact (Except.ok.inj (Prod.mk.inj returned).1).symm

/-- What is arranged for a build: its options are valid, it has its own request, and the text of
the program stands in its file. -/
theorem arrange_eq_ok {a : BuildArguments} {options : BuildOptions}
    (done : (arrange a).run w = (.ok (options, request), w')) :
    BuildOptions.ofSettings a.settings = .ok options ∧
      request = a.requestIn options (a.folderIn w) ∧
      w'.disk.file? (Path.place request.programFile) = some (.text a.source) := by
  obtain ⟨own, _, checked, done⟩ := Work.run_bind_eq_ok done
  have pure := Work.run_check (BuildOptions.ofSettings a.settings) w
  obtain ⟨valid, rfl⟩ := Prod.mk.inj (pure.symm.trans checked)
  obtain ⟨folder, _, found, done⟩ := Work.run_bind_eq_ok done
  obtain ⟨_, _, _, done⟩ := Work.run_bind_eq_ok done
  obtain ⟨_, _, written, done⟩ := Work.run_bind_eq_ok done
  obtain ⟨same, rfl⟩ := Prod.mk.inj done
  obtain ⟨rfl, rfl⟩ := Prod.mk.inj (Except.ok.inj same)
  obtain rfl := folderIn_of_buildFolder found
  exact ⟨mapError_eq_ok.mp valid, rfl, file?_of_writeProgram written⟩

end Engine

end Multilevel
