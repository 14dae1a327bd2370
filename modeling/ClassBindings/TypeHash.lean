import ClassBindings.Digest.Xxh64
import ClassBindings.Text.Hexadecimal

/-! # Type identity

A type is identified by a `TypeHash`, computed from its canonical name (`TypeHash.ofName`), so two
signatures agree when their hashes do. -/
namespace ClassBindings

/-- A 64-bit identity of a type. -/
structure TypeHash where
  value : UInt64
deriving DecidableEq

namespace TypeHash

/-- Mixed into every digest, so that a type's hash is no plain digest of its name. -/
def domain : UInt64 := 0x2fac10b63a6cc57c

/-- The identity of the type called `name`: a digest of its UTF-8 bytes. -/
def ofName (name : String) : TypeHash :=
  ⟨domain ^^^ Digest.Xxh64.digest 0 (name.toList.flatMap String.utf8EncodeChar)⟩

/-- All sixteen hexadecimal digits, after `0x`. -/
def text (hash : TypeHash) : String := "0x" ++ Text.hexPadded 16 hash.value.toNat

/-- The hash marked as one, for debugging. -/
def debugText (hash : TypeHash) : String := s!"TypeHash({hash.text})"

end TypeHash

end ClassBindings
