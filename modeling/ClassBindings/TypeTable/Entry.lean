import ClassBindings.Identifier
import ClassBindings.Primitive
import ClassBindings.TypeName

/-! # Type table entries

A `TypeEntry` is a type by its canonical name, its identity, and what the name stands for.  Only
`TypeEntry.ofName` ties the identity to the name; an entry may carry another one. -/
namespace ClassBindings

/-- What a type name stands for. -/
inductive TypeKind where
  | primitive (kind : Primitive)
  /-- The builtin text type. -/
  | text
  | boundClass (id : ClassId)
  /-- An enumeration of this module. -/
  | enumeration (module : ModuleId)
deriving DecidableEq

/-- A type of a package. -/
structure TypeEntry where
  /-- The canonical name. -/
  name : String
  hash : TypeHash
  kind : TypeKind
deriving DecidableEq

namespace TypeEntry

/-- The type called `name`, with the identity that the name gives it. -/
def ofName (name : String) (kind : TypeKind) : TypeEntry := ⟨name, TypeHash.ofName name, kind⟩

/-- A primitive under its canonical name. -/
def primitive (kind : Primitive) : TypeEntry := ofName kind.name (.primitive kind)

/-- The builtin text type. -/
def text : TypeEntry := ofName TypeName.textType .text

/-- The class that the type is, if it is one. -/
def classId? (entry : TypeEntry) : Option ClassId :=
  match entry.kind with
  | .boundClass id => some id
  | _ => none

/-- The type is a number, a truth value or the absence of a value. -/
def isPrimitive (entry : TypeEntry) : Bool :=
  match entry.kind with
  | .primitive _ => true
  | _ => false

end TypeEntry

end ClassBindings
