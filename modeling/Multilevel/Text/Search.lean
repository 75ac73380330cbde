/-!
# Searching text

Where a text begins with another one, and whether it occurs in it.
-/
namespace Multilevel.Text

/-- What follows a text at the start of a character list, if the list starts with it. -/
def after? : List Char → List Char → Option (List Char)
  | [], chars => some chars
  | _ :: _, [] => none
  | p :: part, c :: chars => if p = c then after? part chars else none

/-- Whether characters occur one after the other in a character list. -/
def occursIn (part : List Char) : List Char → Bool
  | [] => part.isEmpty
  | c :: chars => (after? part (c :: chars)).isSome || occursIn part chars

/-- Whether a text occurs in another one. -/
def occurs (part text : String) : Bool := occursIn part.toList text.toList

/-- A list starts with characters exactly if it is these followed by the rest. -/
theorem after?_eq_some_iff {part chars rest : List Char} :
    after? part chars = some rest ↔ chars = part ++ rest := by
  induction part generalizing chars with
  | nil => simp [after?, eq_comm]
  | cons p part ih =>
    cases chars with
    | nil => simp [after?]
    | cons c chars =>
      rw [after?]
      split
      · rename_i same
        simp [same, ih]
      · rename_i differs
        simp [Ne.symm differs]

/-- Characters occur exactly if the list is these with something before and after. -/
theorem occursIn_eq_true_iff {part chars : List Char} :
    occursIn part chars = true ↔ part <:+: chars := by
  induction chars with
  | nil => simp [occursIn]
  | cons c chars ih =>
    have starts : (after? part (c :: chars)).isSome = true ↔ part <+: c :: chars := by
      rw [Option.isSome_iff_exists]
      exact exists_congr fun rest => after?_eq_some_iff.trans eq_comm
    rw [occursIn, Bool.or_eq_true, ih, List.infix_cons_iff, starts]

end Multilevel.Text
