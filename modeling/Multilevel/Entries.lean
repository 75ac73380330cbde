/-!
# Named entries

Lists of entries under names. Putting an entry under a name that is taken replaces the earlier
one and keeps its place.
-/
namespace Multilevel.Entries

variable {α : Type}

/-- Puts an entry under a name. -/
def put : List (String × α) → String → α → List (String × α)
  | [], name, entry => [(name, entry)]
  | (other, old) :: rest, name, entry =>
    if other = name then (name, entry) :: rest else (other, old) :: put rest name entry

/-- Puts entries one after the other. -/
def putAll (entries more : List (String × α)) : List (String × α) :=
  more.foldl (fun all (name, entry) => put all name entry) entries

/-- Applies a function to the entry of a name, wherever it stands. -/
def adjust (entries : List (String × α)) (name : String) (f : α → α) : List (String × α) :=
  entries.map fun (other, entry) => (other, if other = name then f entry else entry)

/-- The entries less those of some names. -/
def without (entries : List (String × α)) (names : List String) : List (String × α) :=
  entries.filter fun (name, _) => !names.contains name

/-- The name that an entry was put under leads to it. -/
theorem lookup_put_self (entries : List (String × α)) (name : String) (entry : α) :
    (put entries name entry).lookup name = some entry := by
  induction entries with
  | nil => simp [put]
  | cons first rest ih =>
    obtain ⟨other, old⟩ := first
    rw [put]
    split
    · simp
    · rename_i differs
      rw [List.lookup_cons]
      have : (name == other) = false := by simpa using fun same => differs same.symm
      simp [this, ih]

/-- Other names lead where they led before. -/
theorem lookup_put_of_ne (entries : List (String × α)) {name other : String} (entry : α)
    (differs : other ≠ name) : (put entries name entry).lookup other = entries.lookup other := by
  have unlike : (other == name) = false := by simpa using differs
  induction entries with
  | nil => simp [put, List.lookup_cons, unlike]
  | cons first rest ih =>
    obtain ⟨third, old⟩ := first
    rw [put]
    split
    · rename_i same
      subst same
      simp [List.lookup_cons, unlike]
    · simp [List.lookup_cons, ih]

end Multilevel.Entries
