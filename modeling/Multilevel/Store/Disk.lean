import Multilevel.Fit.Basic
import Multilevel.Store.Path

/-!
# Files

The files that the library writes and finds again: programs, executables, fits. A file can only be
written where its folder exists. What a place holds after a write is what was written there, and
every other place holds what it held before.
-/
namespace Multilevel

/-- What a file holds. -/
inductive FileContent where
  | text (s : String)
  | executable (e : Executable)
  | fit (f : Fit)
  /-- A stored value that is no fit, by the name of its kind. -/
  | object (kind : String)

/-- What stands at a place. -/
inductive DiskEntry where
  | folder
  | file (content : FileContent)

/-- Files and folders at their places. -/
structure Disk where
  entries : List (Path.Place × DiskEntry) := []

namespace Disk

/-- What stands at a place. The two places that paths start from always hold folders. -/
def find? (d : Disk) (place : Path.Place) : Option DiskEntry :=
  if place = [] || place = [""] then some .folder else d.entries.lookup place

/-- Whether there is something at a place. -/
def has (d : Disk) (place : Path.Place) : Bool := (d.find? place).isSome

/-- The content of the file at a place. -/
def file? (d : Disk) (place : Path.Place) : Option FileContent :=
  match d.find? place with
  | some (.file content) => some content
  | _ => none

/-- The disk with an entry at a place, in the stead of the one that was there. -/
def put (d : Disk) (place : Path.Place) (entry : DiskEntry) : Disk :=
  ⟨(place, entry) :: d.entries.filter fun (other, _) => other != place⟩

/-- The disk without what stands at a place or below it. -/
def erase (d : Disk) (place : Path.Place) : Disk :=
  ⟨d.entries.filter fun (other, _) => !place.isPrefixOf other⟩

/-- The disk with a file written. -/
def write (d : Disk) (place : Path.Place) (content : FileContent) : Except Fault Disk :=
  match d.find? place, d.find? place.dropLast with
  | some .folder, _ => .error .isFolder
  | _, some .folder => .ok (d.put place (.file content))
  | _, some (.file _) => .error .notFolder
  | _, none => .error .missingFile

/-- The disk with a folder, unless there is one. -/
def addFolder (d : Disk) (place : Path.Place) : Except Fault Disk :=
  match d.find? place with
  | none => .ok (d.put place .folder)
  | some .folder => .ok d
  | some (.file _) => .error .fileInPlace

/-- The places on the way to a place, that one excluded. -/
def onTheWay (place : Path.Place) : List Path.Place := (List.range place.length).map fun k => place.take k

/-- The disk with a folder and all folders on the way to it. -/
def makeFolders (d : Disk) (place : Path.Place) : Except Fault Disk :=
  if (onTheWay place).any fun p => (d.file? p).isSome then .error .notFolder
  else (onTheWay place ++ [place]).foldlM addFolder d

/-- The names that lead from a folder to a place below it. -/
def below? (folder place : Path.Place) : Option Path.Place :=
  if folder.isPrefixOf place then some (place.drop folder.length) else none

/-- The paths from a folder to the files below it, in order. -/
def filesBelow (d : Disk) (folder : Path.Place) : List String :=
  let found := d.entries.filterMap fun (place, entry) =>
    match entry with
    | .folder => none
    | .file _ => (below? folder place).map "/".intercalate
  found.mergeSort

/-- The files of text, each with its path. -/
def texts (d : Disk) : List (String × String) :=
  d.entries.reverse.filterMap fun (place, entry) =>
    match entry with
    | .file (.text s) => some ("/".intercalate place, s)
    | _ => none

/-- The folders, in the order in which they were made. -/
def folders (d : Disk) : List String :=
  d.entries.reverse.filterMap fun (place, entry) =>
    match entry with
    | .folder => some ("/".intercalate place)
    | .file _ => none

/-- An entry stands where it was put. -/
theorem find?_put_self (d : Disk) {place : Path.Place} (entry : DiskEntry) (proper : place ≠ [])
    (named : place ≠ [""]) : (d.put place entry).find? place = some entry := by
  simp [put, find?, proper, named]

/-- An entry that is put changes no other place. -/
theorem find?_put_of_ne (d : Disk) {place other : Path.Place} (entry : DiskEntry)
    (differs : other ≠ place) : (d.put place entry).find? other = d.find? other := by
  have unlike : (other == place) = false := by simpa using differs
  unfold put find?
  split
  · rfl
  · rw [List.lookup_cons, unlike]
    simp only
    induction d.entries with
    | nil => rfl
    | cons first rest ih =>
      by_cases same : first.1 = place
      · have : (other == first.1) = false := by rw [same]; exact unlike
        rw [List.filter_cons_of_neg (by simp [same]), List.lookup_cons, this, ih]
      · rw [List.filter_cons_of_pos (by simp [same]), List.lookup_cons, List.lookup_cons, ih]

end Disk

end Multilevel
