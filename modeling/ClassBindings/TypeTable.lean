import ClassBindings.Edit
import ClassBindings.Dictionary
import ClassBindings.TypeTable.Entry

/-! # Type tables

A `TypeTable` takes names to identities and identities to types.  Several names may share one type
(`registerAlias`); names are looked up without their qualifiers (`resolve`).  `registerBuiltins`
adds the primitives, their native spellings and the text type to a table, whatever it holds. -/
namespace ClassBindings

/-- The types of a package and the names that lead to them. -/
structure TypeTable where
  types : Dictionary TypeHash TypeEntry
  /-- Canonical names and aliases. -/
  names : Dictionary String TypeHash
deriving DecidableEq

namespace TypeTable

/-- No types. -/
def empty : TypeTable := ⟨.empty, .empty⟩

/-- The identity behind a written type, whose qualifiers do not count. -/
def resolve (table : TypeTable) (name : String) : Option TypeHash :=
  table.names.find? (TypeName.normalize name)

/-- The type with an identity. -/
def get? (table : TypeTable) (hash : TypeHash) : Option TypeEntry := table.types.find? hash

/-- The canonical name of the type with an identity. -/
def nameOf? (table : TypeTable) (hash : TypeHash) : Option String := (table.get? hash).map (·.name)

/-- The number of types; aliases do not count. -/
def size (table : TypeTable) : Nat := table.types.size

/-- Writes a type under its name and its identity, over whatever was there. -/
def insert (table : TypeTable) (entry : TypeEntry) : TypeTable where
  types := table.types.insert entry.hash entry
  names := table.names.insert entry.name entry.hash

/-! ## Builtins -/

/-- Adds a primitive with those of its native spellings that are vacant, unless its identity is
taken. -/
def addPrimitive (table : TypeTable) (kind : Primitive) : TypeTable :=
  if table.types.contains kind.hash then table
  else
    let table := table.insert (.primitive kind)
    let names := kind.aliases.foldl (·.insertIfAbsent · kind.hash) table.names
    { table with names }

/-- Adds the text type, unless its name is taken. -/
def addText (table : TypeTable) : TypeTable :=
  if table.names.contains TypeName.textType then table else table.insert .text

/-- Adds the primitives and the text type. -/
def registerBuiltins (table : TypeTable) : TypeTable :=
  (Primitive.all.foldl addPrimitive table).addText

/-- The table that holds the builtin types and nothing else. -/
def builtins : TypeTable := empty.registerBuiltins

/-! ## Edits -/

/-- Neither the name nor the identity of a type is taken. -/
def checkVacant (table : TypeTable) (entry : TypeEntry) : Except BindError Unit :=
  if table.names.contains entry.name || table.types.contains entry.hash then
    .error (.duplicateType entry.name)
  else .ok ()

/-- The type that a new alias would lead to: the name is not taken, and the target names a type. -/
def aliasTarget (table : TypeTable) (name target : String) : Except BindError TypeHash :=
  if table.names.contains name then .error (.duplicateType name)
  else
    match table.resolve target with
    | some hash => .ok hash
    | none => .error (.typeNotFound target)

/-- Adds a type whose name and identity are both new. -/
def register (entry : TypeEntry) : Edit TypeTable TypeHash := do
  let table ← get
  table.checkVacant entry
  set (table.insert entry)
  return entry.hash

/-- Makes a new name lead to the type that `target` names. -/
def registerAlias (name target : String) : Edit TypeTable TypeHash := do
  let table ← get
  let hash ← table.aliasTarget name target
  set { table with names := table.names.insert name hash }
  return hash

end TypeTable

end ClassBindings
