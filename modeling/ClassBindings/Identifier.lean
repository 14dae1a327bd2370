/-! # Identifiers

Classes, modules and headers lie in flat lists that a package owns, and refer to one another by
position.  Each kind of position is a type of its own, so that none is taken for another. -/
namespace ClassBindings

/-- A position in the class list of a package. -/
structure ClassId where
  index : Nat
deriving DecidableEq

/-- A position in the module list of a package. -/
structure ModuleId where
  index : Nat
deriving DecidableEq

/-- A position in the header list of a package. -/
structure HeaderId where
  index : Nat
deriving DecidableEq

/-- A position in the method list of a class. -/
structure MethodId where
  index : Nat
deriving DecidableEq

/-- The position, marked as that of a class. -/
def ClassId.text (id : ClassId) : String := s!"class_{id.index}"

/-- The position, marked as that of a module. -/
def ModuleId.text (id : ModuleId) : String := s!"module_{id.index}"

/-- The position, marked as that of a header. -/
def HeaderId.text (id : HeaderId) : String := s!"header_{id.index}"

/-- The position, marked as that of a method. -/
def MethodId.text (id : MethodId) : String := s!"fn_{id.index}"

end ClassBindings
