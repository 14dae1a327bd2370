import ClassBindings.Identifier
import ClassBindings.Phase

/-! # Errors

A `BindError` is the cause for which a change to a package is refused, and `BindError.message` its
wording. -/
namespace ClassBindings

/-- Why a change is refused. -/
inductive BindError where
  /-- An override is written with a type that has no meaning. -/
  | unresolvedType (method token : String)
  | typeNotFound (name : String)
  /-- The name, or the identity it would get, is taken. -/
  | duplicateType (name : String)
  | classNotFound (name : String)
  | moduleNotFound (name : String)
  | headerNotFound (name : String)
  /-- The base would make the class its own ancestor. -/
  | circularBaseClass (className base : String)
  /-- The class is not in the phase from which `requested` is entered. -/
  | phaseOrder (className : String) (requested current : Phase)
  | classFinalized (name : String)
  /-- The declaration changed after resolution had begun. -/
  | sealedDeclaration (className : String) (phase : Phase)
  /-- An array hint lacks the type of its elements. -/
  | invalidArrayHint (className : String) (elements : Nat)
  /-- The elements of an array hint are no numbers. -/
  | invalidArrayElementType (className elementType : String)
  /-- A class came before one of its ancestors. -/
  | baseNotResolved (className base : String)
  | methodNotFound (className : String) (index : Nat)
  | notAnAccessor (method : String)
  /-- Nothing of the accessor's name is left for the property. -/
  | invalidPropertyName (method : String)
deriving DecidableEq

namespace BindError

/-- The cause in words. -/
def message : BindError → String
  | unresolvedType method token => s!"override '{method}': unresolved type '{token}'"
  | typeNotFound name => s!"type not found: {name}"
  | duplicateType name => s!"duplicate type: {name}"
  | classNotFound name => s!"class not found: {name}"
  | moduleNotFound name => s!"module not found: {name}"
  | headerNotFound name => s!"header not found: {name}"
  | circularBaseClass className base =>
    s!"circular base class: '{className}' cannot derive from '{base}'"
  | phaseOrder className requested current =>
    s!"class '{className}': cannot run {requested.text} while {current.text}"
  | classFinalized name => s!"class '{name}' is finalized and cannot be modified"
  | sealedDeclaration className phase =>
    s!"class '{className}': declaration is sealed once {phase.text}"
  | invalidArrayHint className elements =>
    s!"class '{className}': {elements} array elements require an element type"
  | invalidArrayElementType className elementType =>
    s!"class '{className}': array element type '{elementType}' is not numeric"
  | baseNotResolved className base =>
    s!"class '{className}': base class '{base}' is not processed yet"
  | methodNotFound className index => s!"class '{className}': no function at index {index}"
  | notAnAccessor method => s!"function '{method}' is neither a getter nor a setter"
  | invalidPropertyName method => s!"function '{method}' does not name a property"

end BindError

end ClassBindings
