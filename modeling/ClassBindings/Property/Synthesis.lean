import ClassBindings.Diagnostic
import ClassBindings.Options
import ClassBindings.Property

/-! # Synthesis of properties

An accessor claims one slot of the property that its name implies (`Options.observe?`).  A list of
claims becomes a property map in which the last claim to a slot holds it, and every claim that takes
a slot from another method is reported (`Synthesis.assemble`). -/
namespace ClassBindings

/-- A method's claim to a slot of a property. -/
structure Observation where
  property : String
  role : AccessorRole
  method : MethodId
deriving DecidableEq

/-- The claim of a method, if it is an accessor that names a property. -/
def Options.observe? (options : Options) (id : MethodId) (m : Method) : Option Observation := do
  let role ← m.accessorRole?
  let property ← options.propertyName? role m.name
  return ⟨property, role, id⟩

/-- The name of the method at a position; empty beyond the list. -/
def methodName (methods : List Method) (id : MethodId) : String :=
  (methods[id.index]?.map (·.name)).getD ""

/-- The report on a claim to a slot that `replaced` held: nothing where the slot was empty or the
same method's. -/
def Observation.report? (methods : List Method) (o : Observation) :
    (replaced : Option MethodId) → Option Diagnostic
  | some replaced =>
    if replaced = o.method then none
    else some (.duplicateAccessor o.property o.role (methodName methods replaced)
      (methodName methods o.method))
  | none => none

/-- Properties under construction, with what there is to report so far. -/
structure Synthesis where
  properties : PropertyMap := .empty
  diagnostics : List Diagnostic := []
deriving DecidableEq

namespace Synthesis

/-- Grants one claim. -/
def grant (methods : List Method) (s : Synthesis) (o : Observation) : Synthesis :=
  let (properties, replaced) := s.properties.attach o.property o.role o.method
  { properties, diagnostics := s.diagnostics ++ (o.report? methods replaced).toList }

/-- Grants claims in order; `methods` gives the names for reports. -/
def assemble (methods : List Method) (observations : List Observation) : Synthesis :=
  observations.foldl (grant methods) {}

/-- The claims of the methods of a class, by position. -/
def observations (options : Options) (methods : List Method) : List Observation :=
  (methods.mapIdx fun i m => options.observe? ⟨i⟩ m).filterMap id

/-- The properties of the methods of a class. -/
def ofMethods (options : Options) (methods : List Method) : Synthesis :=
  assemble methods (observations options methods)

end Synthesis

end ClassBindings
