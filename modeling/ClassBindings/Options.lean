import ClassBindings.Method
import ClassBindings.Text.Trim

/-! # Options

How a package names its properties, whose descendants are counted references, and whether accessors
are recognised by their shape.  `propertyName?` reads a property's name off its accessor;
`inferRole?` reads a role off a method. -/
namespace ClassBindings

/-- The settings of a package. -/
structure Options where
  /-- Dropped from a getter's name to give the property's. -/
  getterPrefix : String := "Get"
  /-- Dropped from a setter's name to give the property's. -/
  setterPrefix : String := "Set"
  /-- The classes that make themselves and their descendants objects. -/
  objectRoots : List String := ["RefCounted"]
  /-- Methods without an accessor mark get one by their shape. -/
  inferAccessors : Bool := false
deriving DecidableEq

namespace Options

/-- What accessors of a role begin with. -/
def rolePrefix (options : Options) : AccessorRole → String
  | .getter => options.getterPrefix
  | .setter => options.setterPrefix

/-- The class makes its descendants objects. -/
def isObjectRoot (options : Options) (className : String) : Bool :=
  options.objectRoots.contains className

/-- What is left of a method's name after a role's beginning. -/
def afterPrefix? (options : Options) (role : AccessorRole) (name : String) : Option String :=
  (Text.stripStart? (options.rolePrefix role).toList name.toList).map String.ofList

/-- The property that an accessor of this name belongs to: its name without the beginning, or all of
it where that beginning is missing, unless nothing is left. -/
def propertyName? (options : Options) (role : AccessorRole) (name : String) : Option String :=
  let property := (options.afterPrefix? role name).getD name
  if property = "" then none else some property

/-- The name has the beginning of a role and goes on after it. -/
def namesRole (options : Options) (role : AccessorRole) (name : String) : Bool :=
  (options.afterPrefix? role name).any (· ≠ "")

/-- The role that a method's shape implies, whatever its accessor marks.  A getter takes nothing
and returns something, a setter takes one value and returns nothing; constructors and static methods
are neither. -/
def inferRole? (options : Options) (m : Method) : Option AccessorRole :=
  if m.flags.isConstructor || m.flags.isStatic then none
  else if options.namesRole .getter m.name && m.params.isEmpty && m.returns.isSome then
    some .getter
  else if options.namesRole .setter m.name && m.params.length = 1 && m.returns.isNone then
    some .setter
  else none

/-- The method with the mark that its shape implies, if it has no accessor mark. -/
def inferAccessor (options : Options) (m : Method) : Method :=
  if m.accessorRole?.isSome then m
  else
    match options.inferRole? m with
    | some .getter => m.addFlags .getter
    | some .setter => m.addFlags .setter
    | none => m

end Options

end ClassBindings
