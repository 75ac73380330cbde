import Multilevel.Text.Split

/-!
# Paths

Paths name files and folders. A path is a text; the place it leads to is a list of names, so
that paths that differ in idle parts lead to the same place.
-/
namespace Multilevel

/-- The extension of the files of fits. -/
def fitExtension : String := ".pkl"

/-- The path that a fit is stored under: the extension is added unless it is there. -/
def fitPath (file : String) : String :=
  if file.endsWith fitExtension then file else file ++ fitExtension

namespace Path

/-- The parts of a path between its slashes. -/
def parts (path : String) : List String := (Text.splitOn '/' path.toList).map String.ofList

/-- The last part of a path. -/
def baseName (path : String) : String := (parts path).getLastD ""

/-- All but the last part of a path. -/
def parent (path : String) : String := "/".intercalate (parts path).dropLast

/-- The path of a name in a folder. A name that starts at the root stands for itself. -/
def join (folder name : String) : String :=
  if name.startsWith "/" || folder.isEmpty then name
  else if folder.endsWith "/" then folder ++ name
  else folder ++ "/" ++ name

/-- Where a path leads to: the names of the folders on the way and its own. The names of a path
that starts at the root start with an empty name. -/
abbrev Place := List String

/-- One step from a place. -/
def step (place : Place) (name : String) : Place :=
  if name = "" || name = "." then place
  else if name = ".." && !place.isEmpty && place ≠ [""] then place.dropLast
  else place ++ [name]

/-- The place that a path leads to. -/
def place (path : String) : Place :=
  (parts path).foldl step (if path.startsWith "/" then [""] else [])

end Path

end Multilevel
