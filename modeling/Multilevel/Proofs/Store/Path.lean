import Multilevel.Store.Path

/-!
# Where paths lead to

A path leads to a place whose last name ends as the path does, and where a name in a folder leads to
depends on where the folder leads to. So a path that does not end in the letter that the extension
of fits ends in leads to no place where a fit is stored.
-/
namespace Multilevel

namespace Text

/-- Characters that are no mark are added to the last piece. -/
theorem splitOn_append {mark : Char} {tail : List Char} (plain : mark ∉ tail) (chars : List Char) :
    ∃ before last, splitOn mark chars = before ++ [last] ∧
      splitOn mark (chars ++ tail) = before ++ [last ++ tail] := by
  induction chars with
  | nil => exact ⟨[], [], rfl, splitOn_of_not_mem plain⟩
  | cons first rest ih =>
    obtain ⟨before, last, pieces, more⟩ := ih
    rw [List.cons_append, splitOn, splitOn, pieces, more]
    split
    · exact ⟨[] :: before, last, rfl, rfl⟩
    · cases before with
      | nil => exact ⟨[], first :: last, rfl, rfl⟩
      | cons piece before => exact ⟨(first :: piece) :: before, last, rfl, rfl⟩

end Text

namespace Path

/-- A name that leads neither nowhere nor upwards leads one step further. -/
theorem step_of_proper {name : String} (proper : name ≠ "" ∧ name ≠ "." ∧ name ≠ "..")
    (start : Place) : step start name = start ++ [name] := by
  simp [step, proper]

/-- A path that ends in characters of a name leads to a place whose last name ends in them. -/
theorem getLast?_place {path : String} {chars tail : List Char} (ends : path.toList = chars ++ tail)
    (noSlash : '/' ∉ tail) (named : ∃ c ∈ tail, c ≠ '.') :
    ∃ before : List Char, (place path).getLast? = some (String.ofList (before ++ tail)) := by
  obtain ⟨pieces, last, _, split⟩ := Text.splitOn_append noSlash chars
  have unlike {name : String} (dots : ∀ c ∈ name.toList, c = '.') :
      String.ofList (last ++ tail) ≠ name := by
    rintro rfl
    obtain ⟨c, mem, noDot⟩ := named
    exact noDot (dots c (by simp [mem]))
  have proper : String.ofList (last ++ tail) ≠ "" ∧ String.ofList (last ++ tail) ≠ "." ∧
      String.ofList (last ++ tail) ≠ ".." :=
    ⟨unlike (by simp), unlike (by simp), unlike (by simp)⟩
  refine ⟨last, ?_⟩
  rw [place, parts, ends, split, List.map_append, List.foldl_append, List.map_singleton,
    List.foldl_cons, List.foldl_nil, step_of_proper proper, List.getLast?_concat]

/-- A path that starts at the root starts with a slash. -/
theorem startsWith_slash (path : String) :
    path.startsWith "/" = true ↔ ∃ rest, path.toList = '/' :: rest := by
  rw [String.startsWith_string_iff]
  constructor
  · rintro ⟨rest, same⟩
    exact ⟨rest, same.symm⟩
  · rintro ⟨rest, same⟩
    exact ⟨rest, same.symm⟩

/-- Something that follows a path does not change whether it starts at the root. -/
theorem startsWith_append {folder : String} (some : folder ≠ "") (more : String) :
    (folder ++ more).startsWith "/" = folder.startsWith "/" := by
  rw [Bool.eq_iff_iff, startsWith_slash, startsWith_slash, String.toList_append]
  cases own : folder.toList with
  | nil => exact absurd (String.toList_eq_nil_iff.mp own) some
  | cons c rest => simp

/-- The parts of two paths with a slash between them. -/
theorem parts_joined (folder name : String) :
    parts (folder ++ "/" ++ name) = parts folder ++ parts name := by
  rw [parts, String.toList_append, String.toList_append, List.append_assoc]
  exact (congrArg _ (Text.splitOn_joined _ _)).trans List.map_append

/-- A name in a folder leads on from where the folder leads to. -/
theorem place_join {name : String} (within : name.startsWith "/" = false) (folder : String) :
    place (join folder name) = (parts name).foldl step (place folder) := by
  rw [join, within, Bool.false_or]
  by_cases none : folder = ""
  · subst none
    have empty : "".isEmpty = true := rfl
    rw [if_pos empty, place, within]
    rfl
  · rw [if_neg (by simpa using none)]
    have start (more : String) := startsWith_append none more
    split
    · rename_i ends
      rw [String.endsWith_eq_endsWith_toSlice, String.Slice.endsWith_string_iff] at ends
      obtain ⟨front, own⟩ : ∃ front, folder.toList = front ++ ['/'] := by
        obtain ⟨front, same⟩ := ends
        exact ⟨front, by simpa using same.symm⟩
      have own' : parts folder = (Text.splitOn '/' front).map String.ofList ++ [""] := by
        rw [parts, own, Text.splitOn_joined, List.map_append]
        rfl
      have all : parts (folder ++ name) =
          (Text.splitOn '/' front).map String.ofList ++ parts name := by
        rw [parts, String.toList_append, own, List.append_assoc, List.singleton_append,
          Text.splitOn_joined, List.map_append, parts]
      rw [place, place, all, own', start, List.foldl_append, List.foldl_append, List.foldl_cons,
        List.foldl_nil]
      rfl
    · rw [place, place, parts_joined, String.append_assoc, start, List.foldl_append]

/-- Where a name in a folder leads to depends on where the folder leads to. -/
theorem place_join_congr {folder other : String} (same : place folder = place other)
    (name : String) : place (join folder name) = place (join other name) := by
  cases within : name.startsWith "/" with
  | false => rw [place_join within, place_join within, same]
  | true => simp only [join, within, Bool.true_or, if_true]

/-- A name without a slash does not start at the root. -/
theorem startsWith_of_name {name : String} (noSlash : '/' ∉ name.toList) :
    name.startsWith "/" = false := by
  rw [Bool.eq_false_iff, Ne, startsWith_slash]
  rintro ⟨rest, own⟩
  exact noSlash (own ▸ List.mem_cons_self)

/-- A name without a slash has one part. -/
theorem parts_of_name {name : String} (noSlash : '/' ∉ name.toList) : parts name = [name] := by
  rw [parts, Text.splitOn_of_not_mem noSlash, List.map_singleton, String.ofList_toList]

/-- A name in a folder leads one step further. -/
theorem place_join_of_name {name : String} (noSlash : '/' ∉ name.toList)
    (named : ∃ c ∈ name.toList, c ≠ '.') (folder : String) :
    place (join folder name) = place folder ++ [name] := by
  have unlike {other : String} (dots : ∀ c ∈ other.toList, c = '.') : name ≠ other := by
    rintro rfl
    obtain ⟨c, mem, noDot⟩ := named
    exact noDot (dots c mem)
  rw [place_join (startsWith_of_name noSlash), parts_of_name noSlash, List.foldl_cons,
    List.foldl_nil, step_of_proper ⟨unlike (by simp), unlike (by simp), unlike (by simp)⟩]

/-- A name in a folder stands in that folder. -/
theorem parent_join {folder name : String} (some : folder ≠ "")
    (ends : folder.endsWith "/" = false) (noSlash : '/' ∉ name.toList) :
    parent (join folder name) = folder := by
  have texts : (parts folder).map String.toList = Text.splitOn '/' folder.toList := by
    rw [parts, List.map_map]
    exact (List.map_congr_left fun piece _ => String.toList_ofList).trans (List.map_id _)
  have path : join folder name = folder ++ "/" ++ name := by
    rw [join, startsWith_of_name noSlash, ends, if_neg (by simpa using some), if_neg (by simp)]
  rw [path, parent, parts_joined, parts_of_name noSlash, List.dropLast_concat,
    ← String.toList_inj, String.toList_intercalate, texts]
  exact Text.intercalate_splitOn '/' folder.toList

end Path

/-- Whether a fit may be stored at a place. -/
def IsFitPlace (place : Path.Place) : Prop := ∃ file, place = Path.place (fitPath file)

/-- The path of a fit ends in the extension. -/
theorem fitExtension_suffix (file : String) : fitExtension.toList <:+ (fitPath file).toList := by
  rw [fitPath]
  split
  · rename_i ends
    rw [String.endsWith_eq_endsWith_toSlice, String.Slice.endsWith_string_iff] at ends
    simpa using ends
  · rw [String.toList_append]
    exact List.suffix_append _ _

/-- A path that ends in a character of a name other than the last of the extension leads to no place
of a fit. -/
theorem not_isFitPlace {path : String} {chars : List Char} {c : Char}
    (ends : path.toList = chars ++ [c]) (noSlash : c ≠ '/') (noDot : c ≠ '.') (other : c ≠ 'l') :
    ¬IsFitPlace (Path.place path) := by
  rintro ⟨file, same⟩
  obtain ⟨before, own⟩ := Path.getLast?_place ends (by simpa using Ne.symm noSlash)
    ⟨c, List.mem_singleton_self c, noDot⟩
  obtain ⟨front, extended⟩ := fitExtension_suffix file
  have fit : (fitPath file).toList = (front ++ ".pk".toList) ++ ['l'] := by
    rw [← extended, List.append_assoc]
    rfl
  obtain ⟨before', own'⟩ := Path.getLast?_place fit (by decide) ⟨'l', by decide⟩
  rw [← same, own, Option.some.injEq, String.ofList_inj] at own'
  exact other (List.append_inj_right' own' rfl |> List.singleton_inj.mp)

end Multilevel
