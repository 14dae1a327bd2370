import ClassBindings.Diagnostic
import ClassBindings.Method
import ClassBindings.Override
import ClassBindings.Property

/-! # Native classes

A `NativeClass` is a class that scripts shall see.  Its declaration is written first; resolution
then fills in what follows from it: the flattened ancestors, the methods that stay, the properties,
and what there was to report. -/
namespace ClassBindings

/-- Instances travel as this many numbers of this type. -/
structure ArrayHint where
  elements : Nat
  /-- The type of a number, as written. -/
  elementType : String
  elements_pos : 0 < elements
deriving DecidableEq

/-- A class of a package. -/
structure NativeClass where
  id : ClassId
  name : String
  /-- The qualified name in native code. -/
  nativeName : String
  module : ModuleId
  /-- Where the class is declared, if that is known. -/
  header : Option HeaderId := none
  /-- The immediate base. -/
  base : Option ClassId := none
  /-- The flattened ancestors, nearest first; none before the class is processed. -/
  ancestors : List ClassId := []
  methods : List Method := []
  overrides : List Override := []
  /-- The names of methods that stay hidden from scripts. -/
  skips : List String := []
  properties : PropertyMap := .empty
  isAbstract : Bool := false
  /-- Instances are counted references. -/
  isObject : Bool := false
  arrayHint : Option ArrayHint := none
  /-- The emitter's mark that there are properties. -/
  hasProperties : Bool := false
  phase : Phase := .declared
  diagnostics : List Diagnostic := []
deriving DecidableEq

namespace NativeClass

/-- Nothing changes the class any more. -/
def isFinalized (c : NativeClass) : Bool := c.phase.isFinalized

/-! ## Members -/

/-- The method at a position. -/
def method? (c : NativeClass) (id : MethodId) : Option Method := c.methods[id.index]?

/-- The first method of this name. -/
def findMethod? (c : NativeClass) (name : String) : Option Method :=
  c.methods.find? (·.name = name)

/-- The methods of this name. -/
def overloads (c : NativeClass) (name : String) : List Method := c.methods.filter (·.name = name)

/-- Methods of this name stay hidden from scripts. -/
def isSkipped (c : NativeClass) (name : String) : Bool := c.skips.contains name

/-- The constructors that scripts may use; an abstract class has none, whatever it declares. -/
def constructors (c : NativeClass) : List Method :=
  if c.isAbstract then [] else c.methods.filter (·.flags.isConstructor)

/-- The constructor that scripts use. -/
def constructor? (c : NativeClass) : Option Method := c.constructors.head?

/-- The accessors of a property. -/
def property? (c : NativeClass) (name : String) : Option Accessors := c.properties.find? name

/-! ## Arrays -/

/-- Instances travel as a fixed number of numbers. -/
def isNumberArray (c : NativeClass) : Bool := c.arrayHint.isSome

/-- How many numbers an instance travels as; none without a hint. -/
def arrayElements (c : NativeClass) : Nat := (c.arrayHint.map (·.elements)).getD 0

/-- The type of the numbers an instance travels as; empty without a hint. -/
def arrayElementType (c : NativeClass) : String := (c.arrayHint.map (·.elementType)).getD ""

/-! ## Checks -/

/-- The class is in the phase from which `requested` is entered. -/
def checkPhase (c : NativeClass) (requested : Phase) : Except BindError Unit :=
  if requested.predecessor? = some c.phase then .ok ()
  else .error (.phaseOrder c.name requested c.phase)

/-- Resolution has not begun, so the declaration may still change. -/
def checkDeclared (c : NativeClass) : Except BindError Unit :=
  match c.phase with
  | .declared => .ok ()
  | .finalized => .error (.classFinalized c.name)
  | phase => .error (.sealedDeclaration c.name phase)

end NativeClass

end ClassBindings
