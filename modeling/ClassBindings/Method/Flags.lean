import ClassBindings.Text.Hexadecimal

/-! # Method flags

A declaration marks what a method is for.  The five marks travel as one byte; the three bits without
a meaning are carried along.  `ofBits_bits` says that the byte holds all there is. -/
namespace ClassBindings

/-- The marks of a method. -/
structure MethodFlags where
  /-- Makes an instance of the class. -/
  isConstructor : Bool := false
  /-- Reads a property. -/
  isGetter : Bool := false
  /-- Writes a property. -/
  isSetter : Bool := false
  /-- Takes no instance. -/
  isStatic : Bool := false
  /-- Stays hidden from scripts. -/
  isSkipped : Bool := false
  /-- The upper three bits, which have no meaning. -/
  reserved : Fin 8 := 0
deriving DecidableEq

namespace MethodFlags

/-- No mark at all. -/
def empty : MethodFlags := {}

/-- Makes an instance, and nothing else. -/
def constructor : MethodFlags := { isConstructor := true }

/-- Reads a property, and nothing else. -/
def getter : MethodFlags := { isGetter := true }

/-- Writes a property, and nothing else. -/
def setter : MethodFlags := { isSetter := true }

/-- The marks of either. -/
def union (a b : MethodFlags) : MethodFlags where
  isConstructor := a.isConstructor || b.isConstructor
  isGetter := a.isGetter || b.isGetter
  isSetter := a.isSetter || b.isSetter
  isStatic := a.isStatic || b.isStatic
  isSkipped := a.isSkipped || b.isSkipped
  reserved := a.reserved ||| b.reserved

/-! ## The byte -/

/-- The marks as a byte, the first in the lowest bit. -/
def bits (flags : MethodFlags) : Nat :=
  flags.isConstructor.toNat + 2 * flags.isGetter.toNat + 4 * flags.isSetter.toNat +
    8 * flags.isStatic.toNat + 16 * flags.isSkipped.toNat + 32 * flags.reserved.val

/-- The marks in the low eight bits of a number. -/
def ofBits (n : Nat) : MethodFlags where
  isConstructor := n.testBit 0
  isGetter := n.testBit 1
  isSetter := n.testBit 2
  isStatic := n.testBit 3
  isSkipped := n.testBit 4
  reserved := Fin.ofNat 8 (n / 32)

/-- **The byte holds all marks.** -/
theorem ofBits_bits (flags : MethodFlags) : ofBits flags.bits = flags := by
  rcases flags with ⟨a, b, c, d, e, r⟩
  revert a b c d e r
  decide

/-- Only bits with a meaning are set. -/
def isKnown (flags : MethodFlags) : Bool := flags.reserved = 0

/-- The flags without the bits that have no meaning. -/
def known (flags : MethodFlags) : MethodFlags := { flags with reserved := 0 }

/-! ## Text -/

/-- The names of the set marks, in the order of their bits. -/
def names (flags : MethodFlags) : List String :=
  [(flags.isConstructor, "CONSTRUCTOR"), (flags.isGetter, "GETTER"), (flags.isSetter, "SETTER"),
    (flags.isStatic, "STATIC"), (flags.isSkipped, "SKIP")].filterMap fun mark =>
      if mark.1 then some mark.2 else none

/-- The marks with this name alone. -/
def ofName? : String → Option MethodFlags
  | "CONSTRUCTOR" => some constructor
  | "GETTER" => some getter
  | "SETTER" => some setter
  | "STATIC" => some { isStatic := true }
  | "SKIP" => some { isSkipped := true }
  | _ => none

/-- The set marks by name, then the bits without a meaning as one number. -/
def debugText (flags : MethodFlags) : String :=
  let rest := if flags.isKnown then [] else ["0x" ++ Text.hexDigits (32 * flags.reserved.val)]
  let parts := if flags = empty then ["0x0"] else flags.names ++ rest
  let list := " | ".intercalate parts
  s!"FunctionTraits({list})"

end MethodFlags

end ClassBindings
