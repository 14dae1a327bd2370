import ClassBindings.TypeHash

/-! # Primitive types

The numbers, the truth values and the absence of a value, with their canonical names and the
native spellings that mean the same (`Primitive.aliases`).  `ofName?_name` says that a canonical
name finds its own primitive. -/
namespace ClassBindings

/-- A builtin type that is not text. -/
inductive Primitive where
  | void
  | bool
  | int8
  | int16
  | int32
  | int64
  | uint8
  | uint16
  | uint32
  | uint64
  | float
  | double
deriving DecidableEq

namespace Primitive

/-- The primitives, in the order in which they are registered. -/
def all : List Primitive :=
  [void, bool, int8, int16, int32, int64, uint8, uint16, uint32, uint64, float, double]

/-- The canonical name. -/
def name : Primitive → String
  | void => "void"
  | bool => "bool"
  | int8 => "int8"
  | int16 => "int16"
  | int32 => "int"
  | int64 => "int64"
  | uint8 => "uint8"
  | uint16 => "uint16"
  | uint32 => "uint"
  | uint64 => "uint64"
  | float => "float"
  | double => "double"

/-- The native spellings besides the canonical name. -/
def aliases : Primitive → List String
  | int8 => ["char", "signed char", "int8_t"]
  | int16 => ["short", "int16_t"]
  | int32 => ["signed", "int32_t", "long"]
  | int64 => ["long long", "int64_t", "long64"]
  | uint8 => ["unsigned char", "uint8_t"]
  | uint16 => ["unsigned short", "uint16_t"]
  | uint32 => ["unsigned", "unsigned int", "uint32_t", "unsigned long"]
  | uint64 => ["unsigned long long", "uint64_t", "size_t"]
  | void | bool | float | double => []

/-- The identity, that of the canonical name. -/
def hash (kind : Primitive) : TypeHash := TypeHash.ofName kind.name

/-- The primitive with this canonical name or native spelling. -/
def ofName? (name : String) : Option Primitive :=
  all.find? fun kind => kind.name = name || kind.aliases.contains name

/-- The values are numbers, so the type can be that of array elements. -/
def isNumeric : Primitive → Bool
  | void | bool => false
  | _ => true

theorem mem_all (kind : Primitive) : kind ∈ all := by cases kind <;> decide

/-- **A canonical name finds its primitive.** -/
theorem ofName?_name (kind : Primitive) : ofName? kind.name = some kind := by
  cases kind <;> decide

end Primitive

end ClassBindings
