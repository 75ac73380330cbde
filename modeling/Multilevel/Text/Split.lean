/-!
# Splitting characters

The pieces of a character list between the occurrences of a mark, single or doubled. Joined with
the mark, the pieces give the list back, and no piece holds a single mark that it was split at.
-/
namespace Multilevel.Text

/-- Puts a character in front of the first piece. -/
def prepend (c : Char) : List (List Char) → List (List Char)
  | [] => [[c]]
  | first :: rest => (c :: first) :: rest

/-- The pieces between the occurrences of a character; at least one. -/
def splitOn (mark : Char) : List Char → List (List Char)
  | [] => [[]]
  | c :: rest => if c = mark then [] :: splitOn mark rest else prepend c (splitOn mark rest)

/-- The pieces between the occurrences of a doubled character, taken from the left. -/
def splitOnDouble (mark : Char) : List Char → List (List Char)
  | [] => [[]]
  | [c] => [[c]]
  | c :: d :: rest =>
    if c = mark ∧ d = mark then [] :: splitOnDouble mark rest
    else prepend c (splitOnDouble mark (d :: rest))

/-- Whether a doubled character occurs. -/
def hasDouble (mark : Char) (chars : List Char) : Bool := 1 < (splitOnDouble mark chars).length

/-- There is at least one piece. -/
theorem splitOn_ne_nil (mark : Char) (chars : List Char) : splitOn mark chars ≠ [] := by
  cases chars with
  | nil => simp [splitOn]
  | cons c rest =>
    rw [splitOn]
    split
    · simp
    · cases splitOn mark rest <;> simp [prepend]

/-- The pieces joined with the mark are the characters that were split. -/
theorem intercalate_splitOn (mark : Char) (chars : List Char) :
    List.intercalate [mark] (splitOn mark chars) = chars := by
  induction chars with
  | nil => rfl
  | cons c rest ih =>
    rw [splitOn]
    cases pieces : splitOn mark rest with
    | nil => exact absurd pieces (splitOn_ne_nil mark rest)
    | cons first more =>
      rw [pieces] at ih
      split
      · rename_i same
        rw [← ih, same]
        simp [List.intercalate]
      · rw [prepend, ← ih]
        cases more <;> simp [List.intercalate]

/-- No piece holds the mark. -/
theorem not_mem_of_mem_splitOn {mark : Char} {chars piece : List Char}
    (mem : piece ∈ splitOn mark chars) : mark ∉ piece := by
  induction chars generalizing piece with
  | nil => simp_all [splitOn]
  | cons c rest ih =>
    rw [splitOn] at mem
    split at mem
    · rcases List.mem_cons.mp mem with rfl | mem
      · simp
      · exact ih mem
    · rename_i other
      cases pieces : splitOn mark rest with
      | nil => exact absurd pieces (splitOn_ne_nil mark rest)
      | cons first more =>
        rw [pieces] at mem
        rcases List.mem_cons.mp mem with rfl | mem
        · have := @ih first (by rw [pieces]; simp)
          simp only [List.mem_cons, not_or]
          exact ⟨fun same => other same.symm, this⟩
        · exact ih (by rw [pieces]; exact List.mem_cons_of_mem _ mem)

/-- Characters without the mark are one piece. -/
theorem splitOn_of_not_mem {mark : Char} {chars : List Char} (free : mark ∉ chars) :
    splitOn mark chars = [chars] := by
  induction chars with
  | nil => rfl
  | cons c rest ih =>
    rw [List.mem_cons, not_or] at free
    rw [splitOn, if_neg fun same => free.1 same.symm, ih free.2]
    rfl

/-- The pieces of two texts with a mark between them. -/
theorem splitOn_joined {mark : Char} (first rest : List Char) :
    splitOn mark (first ++ mark :: rest) = splitOn mark first ++ splitOn mark rest := by
  induction first with
  | nil => simp [splitOn]
  | cons c later ih =>
    rw [List.cons_append, splitOn, splitOn, ih]
    split
    · rfl
    · cases pieces : splitOn mark later with
      | nil => exact absurd pieces (splitOn_ne_nil mark later)
      | cons piece more => rfl

/-- There is at least one piece between doubled marks. -/
theorem splitOnDouble_ne_nil (mark : Char) (chars : List Char) : splitOnDouble mark chars ≠ [] := by
  induction chars using splitOnDouble.induct mark with
  | case1 | case2 => simp [splitOnDouble]
  | case3 c d rest same => simp [splitOnDouble, same]
  | case4 c d rest differs =>
    rw [splitOnDouble, if_neg differs]
    cases splitOnDouble mark (d :: rest) <;> simp [prepend]

/-- The pieces joined with the doubled mark are the characters that were split. -/
theorem intercalate_splitOnDouble (mark : Char) (chars : List Char) :
    List.intercalate [mark, mark] (splitOnDouble mark chars) = chars := by
  induction chars using splitOnDouble.induct mark with
  | case1 => rfl
  | case2 c => rfl
  | case3 c d rest same ih =>
    rw [splitOnDouble, if_pos same]
    cases pieces : splitOnDouble mark rest with
    | nil => exact absurd pieces (splitOnDouble_ne_nil mark rest)
    | cons first more =>
      rw [pieces] at ih
      rw [← ih, same.1, same.2]
      simp [List.intercalate]
  | case4 c d rest differs ih =>
    rw [splitOnDouble, if_neg differs]
    cases pieces : splitOnDouble mark (d :: rest) with
    | nil => exact absurd pieces (splitOnDouble_ne_nil mark (d :: rest))
    | cons first more =>
      rw [pieces] at ih
      rw [prepend, ← ih]
      cases more <;> simp [List.intercalate]

/-- A character other than the mark joins the first piece. -/
theorem splitOnDouble_cons {mark c : Char} (other : c ≠ mark) {chars : List Char}
    (some : chars ≠ []) :
    splitOnDouble mark (c :: chars) = prepend c (splitOnDouble mark chars) := by
  cases chars with
  | nil => exact absurd rfl some
  | cons d rest => rw [splitOnDouble, if_neg fun both => other both.1]

/-- Characters without the mark are one piece, doubled or not. -/
theorem splitOnDouble_of_not_mem {mark : Char} {chars : List Char} (free : mark ∉ chars) :
    splitOnDouble mark chars = [chars] := by
  induction chars with
  | nil => rfl
  | cons c rest ih =>
    rw [List.mem_cons, not_or] at free
    cases rest with
    | nil => rfl
    | cons d more =>
      rw [splitOnDouble_cons (Ne.symm free.1) (by simp), ih free.2]
      rfl

/-- Characters without the mark end at the first doubled one. -/
theorem splitOnDouble_double {mark : Char} {first : List Char} (free : mark ∉ first)
    (rest : List Char) :
    splitOnDouble mark (first ++ mark :: mark :: rest) = first :: splitOnDouble mark rest := by
  induction first with
  | nil => simp [splitOnDouble]
  | cons c more ih =>
    rw [List.mem_cons, not_or] at free
    rw [List.cons_append, splitOnDouble_cons (Ne.symm free.1) (by simp), ih free.2]
    rfl

/-- A single mark does not cut. -/
theorem splitOnDouble_single {mark : Char} {first rest : List Char} (before : mark ∉ first)
    (after : mark ∉ rest) :
    splitOnDouble mark (first ++ mark :: rest) = [first ++ mark :: rest] := by
  induction first with
  | nil =>
    cases rest with
    | nil => rfl
    | cons c more =>
      rw [List.nil_append, splitOnDouble, if_neg fun both => after (by simp [both.2]),
        splitOnDouble_of_not_mem after]
      rfl
  | cons c more ih =>
    rw [List.mem_cons, not_or] at before
    rw [List.cons_append, splitOnDouble_cons (Ne.symm before.1) (by simp), ih before.2]
    rfl

end Multilevel.Text
