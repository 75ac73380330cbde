import Multilevel.Digest.Sha256
import Multilevel.Value.Canonical

/-!
# Identity of a program

A program and the options that it is built with have one identity: the digest of the program's
text, a zero byte and the canonical text of the options. Canonical text holds no zero byte, so
the last one separates the two.
-/
namespace Multilevel.Digest

/-- The bytes that an identity is the digest of. -/
def identityBytes (source : String) (options : List (String × Value)) : List UInt8 :=
  source.toUTF8.toList ++ 0 :: (Value.canonical (.record options)).toUTF8.toList

/-- The identity of a program built with the given options. -/
def identity (source : String) (options : List (String × Value)) : String :=
  sha256 (identityBytes source options)

end Multilevel.Digest
