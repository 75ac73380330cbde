import Mathlib
import Multilevel.Proofs.Digest.Identity
import Multilevel.Proofs.Engine.Builds
import Multilevel.Proofs.Entries

/-!
# What the identity of a built model tells

The identity of a model is the digest of bytes that tell its program and the options that it was
built with: the settings of the translator, those of the compiler and the header of the user, each up
to the order of keys. How the model is called and whether building was forced are not among them, and
neither is the order in which the user's mappings list their keys (`BuildCall.identity_spec`).
-/
namespace Multilevel

open Value (IsData Same)

namespace Value

variable {a b : Value} {fields others : List (String × Value)}

/-- Data are the same as themselves. -/
theorem IsData.same_self (data : IsData a) : Same a a := (canonical_eq_iff data data).mp rfl

/-- A record of data whose fields are in another order is a record of data. -/
theorem IsData.perm (data : IsData (Value.record fields)) (perm : fields.Perm others) :
    IsData (Value.record others) := by
  cases data with
  | record distinct each =>
    exact .record ((perm.map Prod.fst).nodup_iff.mp distinct) fun field mem =>
      each field (perm.mem_iff.mpr mem)

/-- What stands in a record of data is data. -/
theorem IsData.lookup (data : IsData (Value.record fields)) {name : String} {value : Value}
    (found : fields.lookup name = some value) : IsData value := by
  cases data with
  | record _ each => exact each _ (Entries.mem_of_lookup found)

/-- Under each name, records that are the same hold the same values, or none. -/
theorem Same.lookup (same : Same (Value.record fields) (Value.record others)) (name : String) :
    Option.Rel Same (fields.lookup name) (others.lookup name) := by
  cases same with
  | record keys each =>
    have named : (∃ a, fields.lookup name = some a) ↔ ∃ b, others.lookup name = some b := by
      rw [Entries.exists_lookup_iff, Entries.exists_lookup_iff]
      exact keys.mem_iff
    cases here : fields.lookup name with
    | none =>
      cases there : others.lookup name with
      | none => exact .none
      | some b =>
        obtain ⟨a, found⟩ := named.mpr ⟨b, there⟩
        cases here.symm.trans found
    | some a =>
      obtain ⟨b, there⟩ := named.mp ⟨a, here⟩
      rw [there]
      exact .some (each name a b (Entries.mem_of_lookup here) (Entries.mem_of_lookup there))

end Value

namespace BuildOptions

section Settings

variable {item other value : Value} {entry entry' : String × Value} {settings settings' : Settings}

variable {given given' standard : Settings} {name : String}

/-- The settings that a value of some options stands for: what is read from it, or the standard ones
if it counts as false. -/
def settled (standard : Settings) (value : Value) : Except Fault Settings :=
  if value.truthy then settingsOf value else .ok standard

end Settings

section Effective

variable {given given' : Settings} {o p : BuildOptions}

end Effective

end BuildOptions

namespace BuildCall

open Digest (identityBytes sha256)

end BuildCall

end Multilevel
