import Multilevel.Proofs.Outcome
import Multilevel.Store.Disk
import Multilevel.Store.Workspace

/-!
# Work that keeps files

Work on a workspace is followed step by step: what each step ends with, and the workspace that it
leaves.

Writing a file changes that file alone, and making folders changes no file. A change that is refused
changes nothing.

Most work leaves alone the files at some places and stores no fit anywhere. It does so if each of
its steps does, whether it ends with a value or with a failure.
-/
namespace Multilevel.Work

variable {ε α β : Type} {w w' : Workspace}

/-- Returning a value leaves the workspace as it is. -/
theorem run_pure (a : α) (w : Workspace) : (pure a : Work α).run w = (.ok a, w) := rfl

/-- The second of two steps starts from what the first one left. -/
theorem run_bind (x : Work α) (f : α → Work β) (w : Workspace) :
    (x >>= f).run w = match x.run w with
      | (.ok a, w') => (f a).run w'
      | (.error e, w') => (.error e, w') := by
  unfold run ExceptT.run StateT.run
  simp only [bind, ExceptT.bind, ExceptT.mk, StateT.bind, ExceptT.bindCont]
  cases x w with
  | mk outcome after => cases outcome <;> rfl

/-- The second step after a value. -/
theorem run_bind_ok {x : Work α} {a : α} (f : α → Work β) (done : x.run w = (.ok a, w')) :
    (x >>= f).run w = (f a).run w' := by
  rw [run_bind, done]

/-- Nothing comes after a failure. -/
theorem run_bind_error {x : Work α} {e : Failure} (f : α → Work β)
    (failed : x.run w = (.error e, w')) : (x >>= f).run w = (.error e, w') := by
  rw [run_bind, failed]

/-- Two steps end with a value if the first does and the second does after it. -/
theorem run_bind_eq_ok {x : Work α} {f : α → Work β} {b : β}
    (done : (x >>= f).run w = (.ok b, w')) :
    ∃ a between, x.run w = (.ok a, between) ∧ (f a).run between = (.ok b, w') := by
  rw [run_bind] at done
  split at done
  · rename_i a between first
    exact ⟨a, between, first, done⟩
  · cases (Prod.mk.inj done).1

/-- A computation without effects leaves the workspace as it is. -/
theorem run_check [IsFailure ε] (x : Except ε α) (w : Workspace) :
    (check x).run w = (x.mapError IsFailure.toFailure, w) := by
  cases x <;> rfl

/-- A computation without effects that ends with a value. -/
theorem run_check_eq_ok [IsFailure ε] {x : Except ε α} {a : α}
    (done : (check x).run w = (.ok a, w')) : x = .ok a ∧ w = w' := by
  rw [run_check] at done
  exact ⟨mapError_eq_ok.mp (Prod.mk.inj done).1, (Prod.mk.inj done).2⟩

/-- A warning is added to those issued. -/
theorem run_warn (warning : Warning) (w : Workspace) :
    (warn warning).run w = (.ok (), { w with warnings := w.warnings ++ [warning] }) := rfl

/-- A request is added to those received. -/
theorem run_note (call : EngineCall) (w : Workspace) :
    (note call).run w = (.ok (), { w with calls := w.calls ++ [call] }) := rfl

/-- Requests are added to those received, in their order. -/
theorem run_forM_note (as : List α) (call : α → EngineCall) (w : Workspace) :
    (as.forM fun a => note (call a)).run w =
      (.ok (), { w with calls := w.calls ++ as.map call }) := by
  induction as generalizing w with
  | nil =>
    rw [List.map_nil, List.append_nil]
    rfl
  | cons a as ih =>
    have step : ((a :: as).forM fun a => note (call a)) =
        note (call a) >>= fun _ => as.forM fun a => note (call a) := rfl
    rw [step, run_bind_ok _ (run_note _ w), ih, List.map_cons, List.append_assoc,
      List.singleton_append]

/-- Warnings are added to those issued, in their order. -/
theorem run_forM_warn (warnings : List Warning) (w : Workspace) :
    (warnings.forM warn).run w = (.ok (), { w with warnings := w.warnings ++ warnings }) := by
  induction warnings generalizing w with
  | nil =>
    rw [List.append_nil]
    rfl
  | cons warning rest ih =>
    have step : (warning :: rest).forM warn = warn warning >>= fun _ => rest.forM warn := rfl
    rw [step, run_bind_ok _ (run_warn warning w), ih, List.append_assoc, List.singleton_append]

/-- A computation that is reported ends as it does, after its warnings. -/
theorem run_report (r : Reported α) (w : Workspace) :
    (report r).run w = (r.outcome, { w with warnings := w.warnings ++ r.warnings }) := by
  unfold report
  rw [run_bind_ok _ (run_forM_warn r.warnings w)]
  cases r.outcome <;> rfl

/-- Work that is listened to ends as it does alone, but for the log. -/
theorem run_capture (silent : Bool) (work : Work α) (w : Workspace) :
    (capture silent work).run w =
      let opened := w.log.openCapture silent
      let ended := work.run { w with log := opened.2 }
      (.ok (ended.1, ended.2.log.messages opened.1),
        { ended.2 with log := ended.2.log.closeCapture opened.1 }) := rfl

end Multilevel.Work

namespace Multilevel

namespace Disk

variable {d d' : Disk} {place other : Path.Place}

/-- There is no file on an empty disk. -/
theorem file?_empty (place : Path.Place) : ({} : Disk).file? place = none := by
  unfold file? find?
  split <;> simp_all

/-- A place that holds no folder is no start of paths. -/
theorem proper_of_find? (free : d.find? place ≠ some .folder) : place ≠ [] ∧ place ≠ [""] := by
  constructor
  · rintro rfl
    exact free rfl
  · rintro rfl
    exact free rfl

/-- What is found after an entry was put where there was no folder. -/
theorem file?_put (entry : DiskEntry) (free : d.find? place ≠ some .folder)
    (other : Path.Place) : (d.put place entry).file? other =
      if other = place then (match entry with | .file content => some content | .folder => none)
      else d.file? other := by
  obtain ⟨proper, named⟩ := proper_of_find? free
  split
  · rename_i same
    rw [same, file?, find?_put_self d entry proper named]
    cases entry <;> rfl
  · rename_i differs
    rw [file?, find?_put_of_ne d entry differs, file?]

/-- What a disk holds after a file was written. -/
theorem write_eq_ok {content : FileContent} (done : d.write place content = .ok d') :
    d.find? place ≠ some .folder ∧ d' = d.put place (.file content) := by
  unfold write at done
  split at done
  · cases done
  · rename_i free
    exact ⟨fun folder => free folder, (Except.ok.inj done).symm⟩
  · cases done
  · cases done

/-- A written file is found where it was written, and all other files are as before. -/
theorem file?_write {content : FileContent} (done : d.write place content = .ok d')
    (other : Path.Place) :
    d'.file? other = if other = place then some content else d.file? other := by
  obtain ⟨free, rfl⟩ := write_eq_ok done
  exact file?_put _ free other

/-- A folder that is added is no file. -/
theorem file?_addFolder (done : d.addFolder place = .ok d') (other : Path.Place) :
    d'.file? other = d.file? other := by
  unfold addFolder at done
  split at done
  · rename_i free
    obtain rfl := Except.ok.inj done
    rw [file?_put _ (by rw [free]; simp)]
    split
    · rename_i same
      rw [same, file?, free]
    · rfl
  · obtain rfl := Except.ok.inj done
    rfl
  · cases done

/-- Making folders changes no file. -/
theorem file?_makeFolders (done : d.makeFolders place = .ok d') (other : Path.Place) :
    d'.file? other = d.file? other := by
  unfold makeFolders at done
  split at done
  · cases done
  · exact foldlM_spec (fun _ reached => reached.file? other = d.file? other)
      (fun _ _ _ _ before step => (file?_addFolder step other).trans before) [] _ rfl done

end Disk

/-- Whether a content is a fit. -/
def FileContent.IsFit : FileContent → Prop
  | .fit _ => True
  | _ => False

/-- Whether the files at some places are as they were, and every fit was there before. -/
structure Disk.Keeps (kept : Path.Place → Prop) (before after : Disk) : Prop where
  /-- The files at the places are as they were. -/
  files : ∀ place, kept place → after.file? place = before.file? place
  /-- No fit was stored. -/
  fits : ∀ place f, after.file? place = some (.fit f) → before.file? place = some (.fit f)

namespace Disk.Keeps

variable {kept : Path.Place → Prop} {d d' d'' : Disk}

/-- A disk that is not changed keeps its files. -/
theorem refl (kept : Path.Place → Prop) (d : Disk) : Keeps kept d d :=
  ⟨fun _ _ => rfl, fun _ _ found => found⟩

/-- What is kept twice is kept. -/
theorem trans (first : Keeps kept d d') (second : Keeps kept d' d'') : Keeps kept d d'' :=
  ⟨fun place mem => (second.files place mem).trans (first.files place mem),
    fun place f found => first.fits place f (second.fits place f found)⟩

end Disk.Keeps

namespace Work

variable {ε α β : Type} {kept : Path.Place → Prop}

/-- Whether work keeps the files at some places and stores no fit. -/
def Keeps (kept : Path.Place → Prop) (work : Work α) : Prop :=
  ∀ w, Disk.Keeps kept w.disk (work.run w).2.disk

/-- Whether every value that work ends with has a property. -/
def Yields (post : α → Prop) (work : Work α) : Prop := ∀ w a w', work.run w = (.ok a, w') → post a

/-- Work without effects keeps all files. -/
theorem Keeps.of_same {work : Work α} (same : ∀ w, (work.run w).2.disk = w.disk) :
    work.Keeps kept := fun w => by
  rw [same]
  exact .refl kept w.disk

/-- Returning a value keeps all files. -/
theorem keeps_pure (a : α) : (pure a : Work α).Keeps kept := .of_same fun _ => rfl

/-- A computation without effects keeps all files. -/
theorem keeps_check [IsFailure ε] (x : Except ε α) : (check x).Keeps kept :=
  .of_same fun w => by rw [run_check]

/-- A refusal keeps all files. -/
theorem keeps_refuse [IsFailure ε] (e : ε) : (refuse e : Work α).Keeps kept := .of_same fun _ => rfl

/-- Nothing comes after a refusal. -/
theorem keeps_refuse_bind [IsFailure ε] (e : ε) (f : α → Work β) :
    ((refuse e : Work α) >>= f).Keeps kept := .of_same fun _ => rfl

/-- A warning keeps all files. -/
theorem keeps_warn (warning : Warning) : (warn warning).Keeps kept := .of_same fun _ => rfl

/-- A request to the engine keeps all files. -/
theorem keeps_note (call : EngineCall) : (note call).Keeps kept := .of_same fun _ => rfl

/-- Records in the engine's log keep all files. -/
theorem keeps_writeLog (records : List LogRecord) : (writeLog records).Keeps kept :=
  .of_same fun _ => rfl

/-- Looking at the workspace keeps all files. -/
theorem keeps_get : (get : Work Workspace).Keeps kept := .of_same fun _ => rfl

/-- Steps that keep files keep them together, where the second one may rely on a property of the
values of the first. -/
theorem Keeps.bind_of {x : Work α} {f : α → Work β} {post : α → Prop} (first : x.Keeps kept)
    (yields : x.Yields post) (second : ∀ a, post a → (f a).Keeps kept) : (x >>= f).Keeps kept := by
  intro w
  have kept' := first w
  rw [run_bind]
  cases done : x.run w with
  | mk outcome w' =>
    rw [done] at kept'
    cases outcome with
    | ok a => exact kept'.trans (second a (yields w a w' done) w')
    | error => exact kept'

/-- Steps that keep files keep them together. -/
theorem Keeps.bind {x : Work α} {f : α → Work β} (first : x.Keeps kept)
    (second : ∀ a, (f a).Keeps kept) : (x >>= f).Keeps kept :=
  first.bind_of (fun _ _ _ _ => trivial) fun a (_ : True) => second a

/-- A step that is taken under a condition alone keeps files if it does. -/
theorem Keeps.optional {p : Prop} [Decidable p] {step : Work Unit} (each : step.Keeps kept) :
    (if p then step else pure ()).Keeps kept := by
  split
  · exact each
  · exact keeps_pure ()

/-- A value has a property that it is given. -/
theorem yields_pure {post : α → Prop} {a : α} (holds : post a) : (pure a : Work α).Yields post := by
  intro w b w' done
  rw [run_pure] at done
  obtain ⟨same, _⟩ := Prod.mk.inj done
  exact Except.ok.inj same ▸ holds

/-- What the second of two steps ends with has the properties of its values. -/
theorem Yields.bind {x : Work α} {f : α → Work β} {post : β → Prop}
    (second : ∀ a, (f a).Yields post) : (x >>= f).Yields post := by
  intro w b w' done
  rw [run_bind] at done
  split at done
  · exact second _ _ _ _ done
  · obtain ⟨failed, _⟩ := Prod.mk.inj done
    cases failed

/-- Steps of a list that keep files keep them together. -/
theorem Keeps.forM {as : List α} {f : α → Work Unit} (each : ∀ a, (f a).Keeps kept) :
    (as.forM f).Keeps kept := by
  induction as with
  | nil => exact keeps_pure ()
  | cons a as ih => exact (each a).bind fun _ => ih

/-- Warnings keep all files, however the computation ends that issued them. -/
theorem keeps_report (r : Reported α) : (report r).Keeps kept :=
  Keeps.bind (Keeps.forM keeps_warn) fun _ => .of_same fun w => by cases r.outcome <;> rfl

/-- Looking up a file keeps all files. -/
theorem keeps_file? (path : String) : (file? path).Keeps kept :=
  keeps_get.bind fun _ => keeps_pure _

/-- Looking up a place keeps all files. -/
theorem keeps_find? (path : String) : (find? path).Keeps kept :=
  keeps_get.bind fun _ => keeps_pure _

/-- A change of the disk as work. -/
theorem run_changeDisk (change : Disk → Except Fault Disk) (w : Workspace) :
    (changeDisk change).run w = match change w.disk with
      | .ok disk => (.ok (), { w with disk })
      | .error e => (.error (.fault e), w) := by
  have step : (changeDisk change).run w = ((check (change w.disk) >>= fun disk =>
      modify fun w => { w with disk }).run w) := rfl
  rw [step, run_bind, run_check]
  cases change w.disk <;> rfl

/-- Writing a file as work. -/
theorem run_write (path : String) (content : FileContent) (w : Workspace) :
    (write path content).run w = match w.disk.write (Path.place path) content with
      | .ok disk => (.ok (), { w with disk })
      | .error e => (.error (.fault e), w) :=
  run_changeDisk _ w

/-- A change of the disk keeps files if it does where it is not refused. -/
theorem keeps_changeDisk {change : Disk → Except Fault Disk}
    (each : ∀ d d', change d = .ok d' → Disk.Keeps kept d d') : (changeDisk change).Keeps kept := by
  intro w
  rw [run_changeDisk]
  cases done : change w.disk with
  | ok disk => exact each _ _ done
  | error => exact .refl kept w.disk

/-- Making folders keeps all files. -/
theorem keeps_makeFolders (path : String) : (makeFolders path).Keeps kept :=
  keeps_changeDisk fun _ _ done =>
    ⟨fun place _ => Disk.file?_makeFolders done place,
      fun place _ found => Disk.file?_makeFolders done place ▸ found⟩

/-- Making a temporary folder keeps all files. -/
theorem keeps_makeTemporary : makeTemporary.Keeps kept :=
  keeps_get.bind fun _ => Keeps.bind (.of_same fun _ => rfl) fun _ =>
    (keeps_makeFolders _).bind fun _ => keeps_pure _

/-- Writing a file that is no fit to another place keeps the files. -/
theorem keeps_write {path : String} {content : FileContent} (apart : ¬kept (Path.place path))
    (plain : ¬content.IsFit) : (write path content).Keeps kept := by
  refine keeps_changeDisk fun d d' done => ⟨fun place mem => ?_, fun place f found => ?_⟩
  · rw [Disk.file?_write done, if_neg]
    rintro rfl
    exact apart mem
  · rw [Disk.file?_write done] at found
    split at found
    · obtain rfl := Option.some.inj found
      exact absurd trivial plain
    · exact found

/-- Work that is listened to keeps what it keeps. -/
theorem Keeps.capture {work : Work α} (inner : work.Keeps kept) (silent : Bool) :
    (capture silent work).Keeps kept := fun w => by
  rw [run_capture]
  exact inner { w with log := (w.log.openCapture silent).2 }

end Work

end Multilevel
