import Multilevel.Proofs.Store.Keeps

/-!
# Disks that settle

What stands at a place stays there: files are written over and folders are made, but nothing is
taken away. Work settles the disk if, besides, it stores no executable; it does so if each of its
steps does, whether it ends with a value or with a failure.
-/
namespace Multilevel

namespace Disk

variable {d d' d'' : Disk} {place other : Path.Place}

/-- An entry that is put where there was no folder takes nothing away. -/
theorem has_put (entry : DiskEntry) (free : d.find? place ≠ some .folder)
    (there : d.has other = true) : (d.put place entry).has other = true := by
  obtain ⟨proper, named⟩ := proper_of_find? free
  by_cases same : other = place
  · rw [same, has, find?_put_self d entry proper named]
    rfl
  · rw [has, find?_put_of_ne d entry same]
    exact there

/-- A written file takes nothing away. -/
theorem has_write {content : FileContent} (done : d.write place content = .ok d')
    (there : d.has other = true) : d'.has other = true := by
  obtain ⟨free, rfl⟩ := write_eq_ok done
  exact has_put _ free there

/-- There is something where a file was written. -/
theorem has_of_write {content : FileContent} (done : d.write place content = .ok d') :
    d'.has place = true := by
  obtain ⟨free, rfl⟩ := write_eq_ok done
  obtain ⟨proper, named⟩ := proper_of_find? free
  rw [has, find?_put_self d _ proper named]
  rfl

/-- A folder that is added takes nothing away. -/
theorem has_addFolder (done : d.addFolder place = .ok d') (there : d.has other = true) :
    d'.has other = true := by
  unfold addFolder at done
  split at done
  · rename_i free
    obtain rfl := Except.ok.inj done
    exact has_put _ (by rw [free]; simp) there
  · obtain rfl := Except.ok.inj done
    exact there
  · cases done

/-- Making folders takes nothing away. -/
theorem has_makeFolders (done : d.makeFolders place = .ok d') (there : d.has other = true) :
    d'.has other = true := by
  unfold makeFolders at done
  split at done
  · cases done
  · exact foldlM_spec (fun _ reached => reached.has other = true)
      (fun _ _ _ _ before step => has_addFolder step before) [] _ there done

/-- Whether nothing was taken away and every executable was there before. -/
structure Settles (before after : Disk) : Prop where
  /-- Something stands where something stood. -/
  present : ∀ place, before.has place = true → after.has place = true
  /-- No executable was stored. -/
  executables : ∀ place e, after.file? place = some (.executable e) →
    before.file? place = some (.executable e)

/-- A disk that is not changed has settled. -/
theorem Settles.refl (d : Disk) : d.Settles d := ⟨fun _ there => there, fun _ _ found => found⟩

/-- What settles twice settles. -/
theorem Settles.trans (first : d.Settles d') (second : d'.Settles d'') : d.Settles d'' :=
  ⟨fun place there => second.present place (first.present place there),
    fun place e found => first.executables place e (second.executables place e found)⟩

/-- The disk has settled when a file was written that is no executable. -/
theorem settles_write {content : FileContent} (plain : ∀ e, content ≠ .executable e)
    (done : d.write place content = .ok d') : d.Settles d' := by
  refine ⟨fun _ there => has_write done there, fun other e found => ?_⟩
  rw [file?_write done] at found
  split at found
  · exact absurd (Option.some.inj found) (plain e)
  · exact found

/-- The disk has settled when folders were made. -/
theorem settles_makeFolders (done : d.makeFolders place = .ok d') : d.Settles d' :=
  ⟨fun _ there => has_makeFolders done there,
    fun other _ found => file?_makeFolders done other ▸ found⟩

end Disk

namespace Work

variable {α β : Type}

/-- Whether work takes nothing away and stores no executable. -/
def Settles (work : Work α) : Prop := ∀ w : Workspace, w.disk.Settles (work.run w).2.disk

/-- Work that does not change the disk settles it. -/
theorem Settles.of_same {work : Work α} (same : ∀ w, (work.run w).2.disk = w.disk) :
    work.Settles := fun w => by
  rw [same]
  exact .refl w.disk

/-- Returning a value settles the disk. -/
theorem settles_pure (a : α) : (pure a : Work α).Settles := .of_same fun _ => rfl

/-- Steps that settle the disk settle it together. -/
theorem Settles.bind {x : Work α} {f : α → Work β} (first : x.Settles)
    (second : ∀ a, (f a).Settles) : (x >>= f).Settles := by
  intro w
  have settled := first w
  rw [run_bind]
  cases done : x.run w with
  | mk outcome w' =>
    rw [done] at settled
    cases outcome with
    | ok a => exact settled.trans (second a w')
    | error => exact settled

/-- A change of the disk settles it if it does where it is not refused. -/
theorem settles_changeDisk {change : Disk → Except Fault Disk}
    (each : ∀ d d', change d = .ok d' → d.Settles d') : (changeDisk change).Settles := by
  intro w
  rw [run_changeDisk]
  cases done : change w.disk with
  | ok disk => exact each _ _ done
  | error => exact .refl w.disk

/-- Making folders settles the disk. -/
theorem settles_makeFolders (path : String) : (makeFolders path).Settles :=
  settles_changeDisk fun _ _ done => Disk.settles_makeFolders done

/-- Writing a file that is no executable settles the disk. -/
theorem settles_writeContent {content : FileContent} (plain : ∀ e, content ≠ .executable e)
    (path : String) : (write path content).Settles :=
  settles_changeDisk fun _ _ done => Disk.settles_write plain done

/-- Writing a text settles the disk. -/
theorem settles_write (path text : String) : (write path (.text text)).Settles :=
  settles_writeContent (fun _ same => by cases same) path

/-- Making a temporary folder settles the disk. -/
theorem settles_makeTemporary : makeTemporary.Settles :=
  Settles.bind (.of_same fun _ => rfl) fun _ => Settles.bind (.of_same fun _ => rfl) fun _ =>
    (settles_makeFolders _).bind fun _ => settles_pure _

end Work

end Multilevel
