import ClassBindings.NativeClass
import ClassBindings.Primitive
import ClassBindings.Property.Synthesis

/-! # Declaring a class

The edits by which a class is written down.  They are refused once resolution has begun
(`NativeClass.checkDeclared`), except `attachAccessor`, which does not ask and writes properties. -/
namespace ClassBindings.NativeClass

/-- Changes the declaration, as long as that is allowed. -/
def declare (change : NativeClass → NativeClass) : Edit NativeClass Unit := do
  let c ← get
  c.checkDeclared
  set (change c)

/-- Says whether the class can have instances of its own. -/
def setAbstract (value : Bool) : Edit NativeClass Unit := declare ({ · with isAbstract := value })

/-- Says whether instances are counted references. -/
def setObject (value : Bool) : Edit NativeClass Unit := declare ({ · with isObject := value })

/-- Records the header that declares the class. -/
def setHeader (header : HeaderId) : Edit NativeClass Unit :=
  declare ({ · with header := some header })

/-- The hint that instances travel as `elements` numbers of a type; none where that is zero.  Blanks
around the type are ignored in the check and kept in the hint. -/
def makeArrayHint (c : NativeClass) (elements : Nat) (elementType : String) :
    Except BindError (Option ArrayHint) :=
  if h : 0 < elements then
    let written := Text.trim elementType.toList
    if written.isEmpty then .error (.invalidArrayHint c.name elements)
    else if (Primitive.ofName? (String.ofList written)).any (·.isNumeric) then
      .ok (some ⟨elements, elementType, h⟩)
    else .error (.invalidArrayElementType c.name elementType)
  else .ok none

/-- Lets instances travel as `elements` numbers of a type, or no longer as numbers. -/
def setNumberArray (elements : Nat) (elementType : String) : Edit NativeClass Unit := do
  let c ← get
  c.checkDeclared
  let hint ← c.makeArrayHint elements elementType
  set { c with arrayHint := hint }

/-- Hides the methods of this name, or no longer hides them. -/
def setSkip (name : String) (skip : Bool) : Edit NativeClass Unit :=
  declare fun c =>
    { c with skips := if skip then c.skips.insert name else c.skips.filter (· ≠ name) }

/-- Adds a method and returns its position. -/
def addMethod (m : Method) : Edit NativeClass MethodId := do
  declare fun c => { c with methods := c.methods ++ [m] }
  return ⟨(← get).methods.length - 1⟩

/-- Adds the choice of an overload. -/
def addOverride (o : Override) : Edit NativeClass Unit :=
  declare fun c => { c with overrides := c.overrides ++ [o] }

/-- The claim of the method at a position to a slot of the property that its name implies. -/
def accessorClaim (c : NativeClass) (options : Options) (id : MethodId) :
    Except BindError Observation :=
  match c.method? id with
  | none => .error (.methodNotFound c.name id.index)
  | some m =>
    match m.accessorRole? with
    | none => .error (.notAnAccessor m.name)
    | some role =>
      match options.propertyName? role m.name with
      | none => .error (.invalidPropertyName m.name)
      | some property => .ok ⟨property, role, id⟩

/-- Attaches the accessor at a position to the property that its name implies.  An accessor that
loses its slot is reported. -/
def attachAccessor (id : MethodId) (options : Options) : Edit NativeClass Unit := do
  let c ← get
  let claim ← c.accessorClaim options id
  let (properties, replaced) := c.properties.attach claim.property claim.role id
  set { c with
    properties
    diagnostics := c.diagnostics ++ (claim.report? c.methods replaced).toList
    hasProperties := true }

end ClassBindings.NativeClass
