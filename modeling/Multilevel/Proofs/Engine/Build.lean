import Multilevel.Engine.Build
import Multilevel.Proofs.Digest.Identity
import Multilevel.Proofs.Store.Keeps
import Multilevel.Proofs.Store.Path
import Multilevel.Run.Dispatch

/-!
# Building and running keep the fits

The files of a program are named after its identity, so none of them is the file of a fit: a build
changes no file of a fit (`Engine.keeps_build`). A run writes no file at all.
-/
namespace Multilevel

/-- The path of a name in a folder ends in the name. -/
theorem Path.exists_join (folder name : String) :
    ∃ front, (Path.join folder name).toList = front ++ name.toList := by
  rw [Path.join]
  split
  · exact ⟨[], rfl⟩
  · split
    · exact ⟨folder.toList, by rw [String.toList_append]⟩
    · exact ⟨folder.toList ++ "/".toList, by rw [String.toList_append, String.toList_append]⟩

/-- The file of a program is not the file of a fit. -/
theorem not_isFitPlace_program (folder stem : String) :
    ¬IsFitPlace (Path.place (Path.join folder (stem ++ ".stan"))) := by
  obtain ⟨front, path⟩ := Path.exists_join folder (stem ++ ".stan")
  have ends : (Path.join folder (stem ++ ".stan")).toList =
      (front ++ (stem.toList ++ ".sta".toList)) ++ ['n'] := by
    rw [path, String.toList_append, List.append_assoc, List.append_assoc]
    rfl
  exact not_isFitPlace ends (by decide) (by decide) (by decide)

/-- The name of the files of a program ends in a digit. -/
theorem BuildOptions.exists_stem (o : BuildOptions) (source : String) :
    ∃ front, ∃ digit ∈ Digest.hexDigits,
      (o.stem (o.identity source)).toList = front ++ [digit] := by
  have digits : (o.identity source).toList ≠ [] ∧
      ∀ c ∈ (o.identity source).toList, c ∈ Digest.hexDigits := by
    rw [BuildOptions.identity, Digest.identity]
    exact ⟨Digest.sha256_ne_nil _, fun c mem => Digest.mem_hexDigits_of_mem_sha256 mem⟩
  generalize o.identity source = text at digits ⊢
  have some : text.toList.take identityPrefixLength ≠ [] := by
    intro none
    rcases List.take_eq_nil_iff.mp none with zero | empty
    · cases zero
    · exact digits.1 empty
  refine ⟨(o.modelName.level ++ "_").toList ++ (text.toList.take identityPrefixLength).dropLast, _,
    digits.2 _ (List.mem_of_mem_take (List.getLast_mem some)), ?_⟩
  rw [stem, String.toList_append, String.toList_ofList, List.append_assoc,
    List.dropLast_append_getLast some]

/-- The file of an executable is not the file of a fit. -/
theorem not_isFitPlace_executable (folder : String) (o : BuildOptions) (source : String) :
    ¬IsFitPlace (Path.place (Path.join folder (o.stem (o.identity source)))) := by
  obtain ⟨before, digit, hex, stem⟩ := o.exists_stem source
  obtain ⟨front, path⟩ := Path.exists_join folder (o.stem (o.identity source))
  have proper : ∀ c ∈ Digest.hexDigits, c ≠ '/' ∧ c ≠ '.' ∧ c ≠ 'l' := by
    have all : (Digest.hexDigits.all fun c => c ≠ '/' ∧ c ≠ '.' ∧ c ≠ 'l') = true := by decide
    simpa only [List.all_eq_true, decide_eq_true_eq] using all
  obtain ⟨noSlash, noDot, other⟩ := proper digit hex
  have ends : (Path.join folder (o.stem (o.identity source))).toList =
      (front ++ before) ++ [digit] := by
    rw [path, stem, List.append_assoc]
  exact not_isFitPlace ends noSlash noDot other

namespace Engine

variable {engine : Engine} {kept : Path.Place → Prop}

/-- Writing a program to another place keeps the files. -/
theorem keeps_writeProgram {path : String} (apart : ¬kept (Path.place path)) (source : String) :
    (writeProgram path source).Keeps kept := by
  have write : (Work.write path (.text source)).Keeps kept :=
    Work.keeps_write apart fun fit => fit
  refine (Work.keeps_file? path).bind fun found => ?_
  split
  · split
    · exact write
    · exact Work.keeps_pure _
  · exact write

/-- Reading a program keeps the files. -/
theorem keeps_programAt (path : String) : (programAt path).Keeps kept := by
  refine (Work.keeps_file? path).bind fun found => ?_
  split <;> exact Work.keeps_pure _

/-- Looking for an executable keeps the files. -/
theorem keeps_executableAt? (request : CompileRequest) (program : String) :
    (executableAt? request program).Keeps kept := by
  refine (Work.keeps_find? _).bind fun found => ?_
  split <;> exact Work.keeps_pure _

/-- Making an executable at another place keeps the files. -/
theorem keeps_makeExecutable {request : CompileRequest}
    (apart : ¬kept (Path.place request.executableFile)) :
    (engine.makeExecutable request).Keeps kept := by
  refine (keeps_programAt _).bind fun program => (keeps_executableAt? _ _).bind fun found =>
    (Work.keeps_note _).bind fun _ => (Work.keeps_writeLog _).bind fun _ => ?_
  generalize (engine.compile request program _).outcome = outcome
  cases outcome with
  | error => exact Work.keeps_pure _
  | ok executable =>
    simp only
    split
    · have write : (Work.write request.executableFile (.executable executable)).Keeps kept :=
        Work.keeps_write apart fun fit => fit
      exact write.bind fun _ => Work.keeps_pure _
    · exact Work.keeps_pure _

/-- Listening to how an executable is made keeps the files. -/
theorem keeps_captureExecutable {request : CompileRequest}
    (apart : ¬kept (Path.place request.executableFile)) (silent reloading : Bool) :
    (engine.captureExecutable request silent reloading).Keeps kept := by
  refine ((keeps_makeExecutable apart).capture silent).bind fun ended =>
    (Work.keeps_check _).bind fun outcome => ?_
  split
  · exact Work.keeps_pure _
  · split
    · exact Work.keeps_refuse _
    · exact Work.keeps_refuse _

/-- Finding the folder of a build keeps the files. -/
theorem keeps_buildFolder (folder : Option String) (keep : Bool) :
    (buildFolder folder keep).Keeps kept := by
  unfold buildFolder
  split
  · exact (Work.keeps_warn _).bind fun _ => Work.keeps_makeTemporary
  · split
    · exact Work.keeps_pure _
    · exact Work.keeps_get.bind fun _ => Work.keeps_pure _

/-- Building a program keeps the files of fits. -/
theorem keeps_build (within : ∀ place, kept place → IsFitPlace place) (a : BuildArguments) :
    (engine.build a).Keeps kept := by
  refine (Work.keeps_check _).bind fun options => (keeps_buildFolder _ _).bind fun folder =>
    (Work.keeps_makeFolders _).bind fun _ => ?_
  refine (keeps_writeProgram (fun mem => not_isFitPlace_program _ _ (within _ mem)) _).bind
    fun _ => ?_
  refine (keeps_captureExecutable (fun mem => ?_) _ _).bind fun _ => Work.keeps_pure _
  exact not_isFitPlace_executable folder options a.source (within _ mem)

/-- A model that was built has its executable. -/
theorem yields_build (a : BuildArguments) :
    (engine.build a).Yields fun compiled => compiled.handle.isSome :=
  .bind fun _ => .bind fun _ => .bind fun _ => .bind fun _ => .bind fun _ => Work.yields_pure rfl

/-- A model that has its executable is not written again. -/
theorem keeps_reload_of_handle {c : CompiledModel} (ready : c.handle.isSome) :
    (engine.reload c).Keeps kept := by
  obtain ⟨executable, own⟩ := Option.isSome_iff_exists.mp ready
  rw [reload, own]
  exact Work.keeps_pure _

/-- Making the executable of a stored model at other places keeps the files. -/
theorem keeps_reload {c : CompiledModel} (program : ¬kept (Path.place c.programFile))
    (executable : ¬kept (Path.place c.executableFile)) : (engine.reload c).Keeps kept := by
  rw [reload]
  split
  · exact Work.keeps_pure _
  · exact (Work.keeps_makeFolders _).bind fun _ => (keeps_writeProgram program _).bind fun _ =>
      (keeps_captureExecutable executable _ _).bind fun _ => Work.keeps_pure _

/-- A run with one request keeps all files. -/
theorem keeps_runBatch (executable : Executable) (data : BuildData) (c : SamplingConfig) :
    (engine.runBatch executable data c).Keeps kept := by
  unfold runBatch
  split
  · exact Work.keeps_refuse_bind _ _
  · refine (Work.keeps_note _).bind fun _ => (Work.keeps_check _).bind fun draws => ?_
    split
    · exact Work.keeps_refuse_bind _ _
    · exact Work.keeps_pure _

/-- A run as futures keeps all files. -/
theorem keeps_runFutures (executable : Executable) (data : BuildData) (c : SamplingConfig) :
    (engine.runFutures executable data c).Keeps kept := by
  have gathered (jobs : List ChainJob) : (engine.gather executable data c jobs).Keeps kept :=
    (Work.keeps_check _).bind fun _ => Work.keeps_check _
  rw [runFutures_eq]
  exact (Work.keeps_warn _).optional.bind fun _ => (Work.keeps_check _).bind fun jobs =>
    (Work.Keeps.forM fun _ => Work.keeps_note _).optional.bind fun _ => gathered jobs

/-- An approximation keeps all files. -/
theorem keeps_runVariational (executable : Executable) (data : BuildData) (c : VariationalConfig) :
    (engine.runVariational executable data c).Keeps kept := by
  refine (Work.keeps_check _).bind fun _ => ?_
  split
  · exact Work.keeps_refuse_bind _ _
  · exact (Work.keeps_note _).bind fun _ => Work.keeps_check _

/-- A run keeps all files. -/
theorem keeps_dispatch (executable : Executable) (data : BuildData) (config : RunConfig) :
    (engine.dispatch executable data config).Keeps kept := by
  refine (Work.keeps_check _).bind fun _ => ?_
  cases config with
  | variational c => exact keeps_runVariational executable data c
  | sampling c =>
    simp only
    split
    · exact keeps_runFutures executable data c
    · exact keeps_runBatch executable data c

end Engine

end Multilevel
