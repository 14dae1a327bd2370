import ClassBindings.AccessorRole
import ClassBindings.Method.Flags
import ClassBindings.TypeHash

/-! # Methods

A class declares a flat list of methods.  Resolution looks only at a method's name, the types of its
parameters and its flags. -/
namespace ClassBindings

/-- A parameter of a method. -/
structure Param where
  name : String
  type : TypeHash
  isConst : Bool := false
  isReference : Bool := false
deriving DecidableEq

/-- A method, as declared. -/
structure Method where
  name : String
  params : List Param := []
  /-- Nothing is returned where this is absent. -/
  returns : Option TypeHash := none
  flags : MethodFlags := {}
deriving DecidableEq

namespace Method

/-! ## Building methods -/

/-- The method with these marks added. -/
def addFlags (m : Method) (flags : MethodFlags) : Method := { m with flags := m.flags.union flags }

/-- The method with one more parameter. -/
def addParam (m : Method) (param : Param) : Method := { m with params := m.params ++ [param] }

/-- The method with by-value parameters of these types, each named by its position. -/
def addParamTypes (m : Method) (types : List TypeHash) : Method :=
  types.foldl (fun m type => m.addParam { name := s!"arg{m.params.length}", type }) m

/-- A constructor; it goes by the name of its class. -/
def constructor (className : String) : Method := { name := className, flags := .constructor }

/-- A method that reads a property of this type. -/
def getter (name : String) (type : TypeHash) : Method :=
  { name, returns := some type, flags := .getter }

/-- A method that writes a property of this type. -/
def setter (name : String) (type : TypeHash) : Method :=
  { name, params := [{ name := "value", type }], flags := .setter }

/-! ## Reading methods -/

/-- What the method's marks make it of a property; a reader that also writes counts as a reader. -/
def accessorRole? (m : Method) : Option AccessorRole :=
  if m.flags.isGetter then some .getter
  else if m.flags.isSetter then some .setter
  else none

/-- The types of the parameters. -/
def paramTypes (m : Method) : List TypeHash := m.params.map (·.type)

/-- The parameters have exactly these types. -/
def hasSignature (m : Method) (types : List TypeHash) : Bool := m.paramTypes = types

end Method

end ClassBindings
