import Multilevel.Proofs.Engine.Executables

/-!
# Builds that nothing stands in the way of

If the files of a request can be written and the engine can make its executable, then the build of
a program ends with a model, and loading a model again ends with its executable
(`Engine.exists_build`, `Engine.exists_reload`).
-/
namespace Multilevel

namespace Disk

variable {d d' : Disk} {place other : Path.Place}

/-- Whether a file can be written at a place: no folder stands there, and the folder that it belongs
to exists. -/
structure Accepts (d : Disk) (place : Path.Place) : Prop where
  free : d.find? place ≠ some .folder
  within : d.find? place.dropLast = some .folder

/-- Writing where a file can be written. -/
theorem Accepts.write_eq (accepts : d.Accepts place) (content : FileContent) :
    d.write place content = .ok (d.put place (.file content)) := by
  unfold write
  rw [accepts.within]
  cases found : d.find? place with
  | none => rfl
  | some entry =>
    cases entry with
    | folder => exact absurd found accepts.free
    | file => rfl

/-- A file that is written is in no other file's way. -/
theorem Accepts.put (accepts : d.Accepts other) (free : d.find? place ≠ some .folder)
    (content : FileContent) : (d.put place (.file content)).Accepts other := by
  obtain ⟨proper, named⟩ := proper_of_find? free
  constructor
  · by_cases same : other = place
    · rw [same, find?_put_self d _ proper named]
      simp
    · rw [find?_put_of_ne d _ same]
      exact accepts.free
  · have differs : other.dropLast ≠ place := by
      rintro same
      exact free (same ▸ accepts.within)
    rw [find?_put_of_ne d _ differs]
    exact accepts.within

/-- A folder stands where one was added. -/
theorem find?_addFolder (done : d.addFolder place = .ok d') : d'.find? place = some .folder := by
  unfold addFolder at done
  split at done
  · rename_i free
    obtain rfl := Except.ok.inj done
    have lacks : d.find? place ≠ some .folder := by rw [free]; simp
    obtain ⟨proper, named⟩ := proper_of_find? lacks
    exact find?_put_self d _ proper named
  · rename_i there
    obtain rfl := Except.ok.inj done
    exact there
  · cases done

/-- Adding a folder keeps the folders. -/
theorem find?_addFolder_of_folder (done : d.addFolder place = .ok d')
    (there : d.find? other = some .folder) : d'.find? other = some .folder := by
  by_cases same : other = place
  · rw [same]
    exact find?_addFolder done
  · unfold addFolder at done
    split at done
    · obtain rfl := Except.ok.inj done
      rw [find?_put_of_ne d _ same]
      exact there
    · obtain rfl := Except.ok.inj done
      exact there
    · cases done

/-- Folders stand where they were made and on the way there. -/
theorem find?_makeFolders (done : d.makeFolders place = .ok d') :
    ∀ folder ∈ onTheWay place ++ [place], d'.find? folder = some .folder := by
  unfold makeFolders at done
  split at done
  · cases done
  · refine foldlM_spec (fun seen (reached : Disk) =>
      ∀ folder ∈ seen, reached.find? folder = some .folder)
      (fun seen folder before after folders step one mem => ?_) [] _ (by simp) done
    rcases List.mem_append.mp mem with early | late
    · exact find?_addFolder_of_folder step (folders one early)
    · rw [List.mem_singleton.mp late]
      exact find?_addFolder step

/-- Folders that were made are made again by doing nothing. -/
theorem makeFolders_again (done : d.makeFolders place = .ok d') :
    d'.makeFolders place = .ok d' := by
  have made := find?_makeFolders done
  have clear : ((onTheWay place).any fun p => (d'.file? p).isSome) = false := by
    rw [List.any_eq_false]
    intro folder mem
    rw [file?, made folder (List.mem_append_left _ mem)]
    simp
  have idle (folders : List Path.Place)
      (there : ∀ folder ∈ folders, d'.find? folder = some .folder) :
      folders.foldlM addFolder d' = .ok d' := by
    induction folders with
    | nil => rfl
    | cons folder rest ih =>
      rw [List.foldlM_cons, addFolder, there folder List.mem_cons_self]
      exact ih fun later mem => there later (List.mem_cons_of_mem _ mem)
  rw [makeFolders, clear]
  exact idle _ made

/-- Making a folder makes nothing below it. -/
theorem find?_makeFolders_of_longer (done : d.makeFolders place = .ok d')
    (below : place.length < other.length) : d'.find? other = d.find? other := by
  unfold makeFolders at done
  split at done
  · cases done
  · refine (foldlM_spec (fun seen (reached : Disk) => (∀ folder ∈ seen, folder ≠ other) →
      reached.find? other = d.find? other) (fun seen folder before after kept step => ?_) [] _
        (fun _ => rfl) done) ?_
    · intro apart
      have early := kept fun folder mem => apart folder (List.mem_append_left _ mem)
      have differs := apart folder (List.mem_append_right _ (List.mem_singleton_self folder))
      rw [← early]
      unfold addFolder at step
      split at step
      · obtain rfl := Except.ok.inj step
        exact find?_put_of_ne before _ differs.symm
      · rw [Except.ok.inj step]
      · cases step
    · rintro folder mem rfl
      rw [List.nil_append] at mem
      rcases List.mem_append.mp mem with way | last
      · obtain ⟨k, _, rfl⟩ := List.mem_map.mp way
        exact Nat.not_lt.mpr (List.length_take_le' k place) below
      · obtain rfl := List.mem_singleton.mp last
        exact Nat.lt_irrefl _ below

/-- Whether the files of a request can be written: its folder can be made, and then a file at either
place. -/
def Receives (d : Disk) (folder : String) (request : CompileRequest) : Prop :=
  ∃ made, d.makeFolders (Path.place folder) = .ok made ∧
    made.Accepts (Path.place request.programFile) ∧
      made.Accepts (Path.place request.executableFile)

/-- Whether nothing stands in the way of making an executable of a program: its files can be
written, and an executable that is there was made of the program. -/
structure Admits (d : Disk) (folder : String) (request : CompileRequest) (source : String) :
    Prop where
  receives : d.Receives folder request
  sound : ∀ e, d.file? (Path.place request.executableFile) = some (.executable e) →
    e.program = source

/-- A request can be satisfied in a folder that can be made and has nothing in it. -/
theorem admits_of_free {folder name stem : String} {request : CompileRequest} {source : String}
    (folders : d.makeFolders (Path.place folder) = .ok d')
    (free : ∀ name, d.find? (Path.place folder ++ [name]) = none)
    (program : Path.place request.programFile = Path.place folder ++ [name])
    (executable : Path.place request.executableFile = Path.place folder ++ [stem]) :
    d.Admits folder request source := by
  have accepts (name : String) : d'.Accepts (Path.place folder ++ [name]) := by
    constructor
    · rw [find?_makeFolders_of_longer folders (by simp), free]
      simp
    · rw [List.dropLast_concat]
      exact find?_makeFolders folders _ (List.mem_append_right _ (List.mem_singleton_self _))
  refine ⟨⟨d', folders, program ▸ accepts name, executable ▸ accepts stem⟩, fun e found => ?_⟩
  rw [executable, file?, free] at found
  cases found

end Disk

/-- The request to make the executable of a stored model. -/
def CompiledModel.reloadRequest (c : CompiledModel) : CompileRequest :=
  ⟨c.programFile, c.executableFile, false, c.options.translator, c.options.compiler,
    c.options.header⟩

/-- The files of a program are named after its model, and their names lead into the folder. -/
theorem BuildOptions.stem_named {o : BuildOptions} (noSlash : '/' ∉ o.modelName.level.toList)
    (source : String) : '/' ∉ (o.stem (o.identity source)).toList ∧
      ∃ c ∈ (o.stem (o.identity source)).toList, c ≠ '.' := by
  have own : (o.stem (o.identity source)).toList =
      o.modelName.level.toList ++ '_' :: o.mark source := by
    rw [stem, String.toList_append, String.toList_append, String.toList_ofList, mark]
    simp
  rw [own]
  refine ⟨fun slash => ?_, '_', by simp, by decide⟩
  rcases List.mem_append.mp slash with name | rest
  · exact noSlash name
  · rcases List.mem_cons.mp rest with line | digit
    · exact absurd line (by decide)
    · exact absurd (mem_hexDigits_of_mem_mark digit) (by decide)

section

variable {d made : Disk} {a : BuildArguments} {o : BuildOptions} {folder : String}

/-- A program can be built in a folder that can be made and has nothing in it. -/
theorem BuildArguments.admits_of_free (noSlash : '/' ∉ o.modelName.level.toList)
    (folders : d.makeFolders (Path.place folder) = .ok made)
    (free : ∀ name, d.find? (Path.place folder ++ [name]) = none) :
    d.Admits folder (a.requestIn o folder) a.source := by
  obtain ⟨plain, named⟩ := BuildOptions.stem_named noSlash a.source
  refine Disk.admits_of_free folders free (Path.place_join_of_name ?_ ?_ folder)
    (Path.place_join_of_name plain named folder)
  · rw [String.toList_append, List.mem_append]
    rintro (slash | slash)
    · exact plain slash
    · exact absurd slash (by simp)
  · obtain ⟨c, mem, noDot⟩ := named
    exact ⟨c, by rw [String.toList_append]; exact List.mem_append_left _ mem, noDot⟩

/-- A model can be loaded again in the folder that it was built in, if that can be made and has
nothing in it. -/
theorem CompiledModel.admits_of_free (noSlash : '/' ∉ o.modelName.level.toList)
    (folders : d.makeFolders (Path.place folder) = .ok made)
    (free : ∀ name, d.find? (Path.place folder ++ [name]) = none) (some : folder ≠ "")
    (ends : folder.endsWith "/" = false) (e : Executable) (lines : List String) :
    let c := Engine.builtFrom a o (a.requestIn o folder) e lines
    d.Admits (Path.parent c.programFile) c.reloadRequest c.source := by
  intro c
  have plain : '/' ∉ (o.stem (o.identity a.source) ++ ".stan").toList := by
    rw [String.toList_append, List.mem_append]
    rintro (slash | slash)
    · exact (BuildOptions.stem_named noSlash a.source).1 slash
    · exact absurd slash (by simp)
  have parent : Path.parent c.programFile = folder := Path.parent_join some ends plain
  rw [parent]
  obtain ⟨receives, sound⟩ := BuildArguments.admits_of_free (a := a) noSlash folders free
  exact ⟨receives, sound⟩

end

namespace Engine

variable {engine : Engine} {request : CompileRequest} {source : String} {w w' : Workspace}

/-- Making a folder as work. -/
theorem run_makeFolders {path : String} {disk : Disk}
    (done : w.disk.makeFolders (Path.place path) = .ok disk) :
    (Work.makeFolders path).run w = (.ok (), { w with disk }) := by
  rw [Work.makeFolders, Work.run_changeDisk, done]

/-- Making a temporary folder. -/
theorem run_makeTemporary {disk : Disk}
    (done : w.disk.makeFolders (Path.place s!"/tmp/{w.temporaries}") = .ok disk) :
    Work.makeTemporary.run w =
      (.ok s!"/tmp/{w.temporaries}", { w with temporaries := w.temporaries + 1, disk }) := by
  let counted : Workspace := { w with temporaries := w.temporaries + 1 }
  have look : (get : Work Workspace).run w = (.ok w, w) := rfl
  have count : (modify fun v => { v with temporaries := w.temporaries + 1 } : Work Unit).run w =
      (.ok (), counted) := rfl
  unfold Work.makeTemporary
  rw [Work.run_bind_ok _ look]
  dsimp only
  rw [Work.run_bind_ok _ count, Work.run_bind_ok _ (run_makeFolders (w := counted) done)]
  rfl

/-- A program is written where a file can be written, and is in no other file's way. -/
theorem exists_writeProgram {path : String} (accepts : w.disk.Accepts (Path.place path))
    (source : String) : ∃ w', (writeProgram path source).run w = (.ok (), w') ∧
      ∀ place, w.disk.Accepts place → w'.disk.Accepts place := by
  have looked : (Work.file? path).run w = (.ok (w.disk.file? (Path.place path)), w) := rfl
  have written : ∃ w', (Work.write path (.text source)).run w = (.ok (), w') ∧
      ∀ place, w.disk.Accepts place → w'.disk.Accepts place := by
    rw [Work.run_write, accepts.write_eq]
    exact ⟨_, rfl, fun place own => own.put accepts.free _⟩
  unfold writeProgram
  rw [Work.run_bind_ok _ looked]
  split
  · split
    · exact written
    · exact ⟨w, rfl, fun _ own => own⟩
  · exact written

/-- The folder of a build is found, and it can be made if it could be made before. -/
theorem exists_buildFolder (a : BuildArguments) {made : Disk}
    (done : w.disk.makeFolders (Path.place (a.folderIn w)) = .ok made) :
    ∃ w', (buildFolder a.folder a.keep).run w = (.ok (a.folderIn w), w') ∧
      w'.disk.makeFolders (Path.place (a.folderIn w)) = .ok made := by
  unfold buildFolder
  rw [BuildArguments.folderIn] at done ⊢
  cases kept : a.keep with
  | true =>
    rw [kept] at done
    cases given : a.folder with
    | some own =>
      rw [given] at done
      exact ⟨w, rfl, done⟩
    | none =>
      rw [given] at done
      exact ⟨w, rfl, done⟩
  | false =>
    simp only [kept, Bool.false_eq_true, if_false, Bool.not_false, if_true] at done ⊢
    let warned : Workspace := { w with warnings := w.warnings ++ [.discardArgument] }
    refine ⟨{ warned with temporaries := w.temporaries + 1, disk := made }, ?_,
      Disk.makeFolders_again done⟩
    rw [Work.run_bind_ok _ (Work.run_warn _ w)]
    exact run_makeTemporary (w := warned) done

/-- A build is arranged if its options are valid and its files can be written. -/
theorem exists_arrange {a : BuildArguments} {o : BuildOptions}
    (valid : BuildOptions.ofSettings a.settings = .ok o)
    (receives : w.disk.Receives (a.folderIn w) (a.requestIn o (a.folderIn w))) :
    ∃ w', (arrange a).run w = (.ok (o, a.requestIn o (a.folderIn w)), w') ∧
      w'.disk.Accepts (Path.place (a.requestIn o (a.folderIn w)).executableFile) := by
  obtain ⟨made, folders, program, executable⟩ := receives
  obtain ⟨found, located, folders⟩ := exists_buildFolder a folders
  have checked : (liftM (BuildOptions.ofSettings a.settings) : Work _).run w = (.ok o, w) := by
    rw [valid]
    rfl
  have ready := run_makeFolders (w := found) folders
  obtain ⟨w', written, kept⟩ :=
    exists_writeProgram (w := { found with disk := made }) program a.source
  refine ⟨w', ?_, kept _ executable⟩
  unfold arrange
  rw [Work.run_bind_ok _ checked, Work.run_bind_ok _ located, Work.run_bind_ok _ ready]
  exact Work.run_bind_ok _ written

/-- An executable is there in the end if the engine can make it and its file can be written. -/
theorem exists_captureExecutable (reuses : engine.ReusesExecutables)
    (written : w.disk.file? (Path.place request.programFile) = some (.text source))
    (accepts : w.disk.Accepts (Path.place request.executableFile))
    (makes : ∀ found, ∃ e, (engine.compile request source found).outcome = .ok e)
    (sound : ∀ e, w.disk.file? (Path.place request.executableFile) = some (.executable e) →
      e.program = source) (silent reloading : Bool) :
    ∃ e lines w', (engine.captureExecutable request silent reloading).run w =
      (.ok (e, lines), w') ∧ e.program = source := by
  have gets := gets_captureExecutable reuses written silent reloading
  cases ended : (engine.captureExecutable request silent reloading).run w with
  | mk outcome w' =>
    rw [ended] at gets
    cases outcome with
    | ok answer =>
      obtain ⟨e, lines⟩ := answer
      exact ⟨e, lines, w', rfl, gets.program_eq sound⟩
    -- Neither the engine nor the disk gives a reason to fail.
    | error failure =>
      cases gets with
      | reused _ _ _ _ answer _ =>
        obtain ⟨found, none⟩ := answer
        obtain ⟨e, made⟩ := makes (some found)
        rw [made] at none
        cases none
      | failed _ _ _ reason =>
        rcases reason with ⟨e, refused⟩ | ⟨content, e, refused⟩
        · obtain ⟨e', made⟩ := makes none
          cases refused.symm.trans made
        · cases refused.symm.trans (accepts.write_eq content)

/-- A program is built if its options are valid, nothing stands in its way, and the engine can make
its executable. -/
theorem exists_build (reuses : engine.ReusesExecutables) {a : BuildArguments} {o : BuildOptions}
    (valid : BuildOptions.ofSettings a.settings = .ok o)
    (admits : w.disk.Admits (a.folderIn w) (a.requestIn o (a.folderIn w)) a.source)
    (makes : ∀ found, ∃ e,
      (engine.compile (a.requestIn o (a.folderIn w)) a.source found).outcome = .ok e) :
    ∃ e lines w', (engine.build a).run w =
        (.ok (builtFrom a o (a.requestIn o (a.folderIn w)) e lines), w') ∧
      e.program = a.source := by
  obtain ⟨between, arranged, accepts⟩ := exists_arrange valid admits.receives
  obtain ⟨_, _, written⟩ := arrange_eq_ok arranged
  have settles := settles_arrange a w
  rw [arranged] at settles
  obtain ⟨e, lines, w', captured, own⟩ := exists_captureExecutable reuses written accepts makes
    (fun e found => admits.sound e (settles.executables _ e found)) a.settings.isEmpty false
  refine ⟨e, lines, w', ?_, own⟩
  rw [build_eq, Work.run_bind_ok _ arranged]
  dsimp only
  rw [Work.run_bind_ok _ captured]
  rfl

end Engine

end Multilevel
