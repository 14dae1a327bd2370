import ClassBindings.NativeClass.Declaration
import ClassBindings.Package

/-! # Filling a package

Modules, headers, classes, enumerations and aliases are added at the end of their lists.  A class or
an enumeration also becomes a type, so its name has to be new among the types.  `editClass` is how a
class already there is changed. -/
namespace ClassBindings.Package

/-- Changes the module at a position, which has to exist. -/
def editModule (id : ModuleId) (change : PackageModule → PackageModule) : Edit Package Unit := do
  let p ← get
  let m ← p.getModule id
  set { p with modules := p.modules.set id.index (change m) }

/-- Edits the type table. -/
def editTypes {α : Type} (edit : Edit TypeTable α) : Edit Package α :=
  Edit.within (·.types) (fun types p => { p with types }) edit

/-! ## Additions -/

/-- Adds a module without headers, classes or enumerations. -/
def registerModule (name : String) : Edit Package ModuleId := do
  let p ← get
  let id : ModuleId := ⟨p.modules.length⟩
  let m : PackageModule := { id, name }
  set { p with modules := p.modules ++ [m] }
  return id

/-- Adds a header that a module was read from. -/
def registerHeader (module : ModuleId) (path : String) : Edit Package HeaderId := do
  let id : HeaderId := ⟨(← get).headers.length⟩
  editModule module fun m => { m with headers := m.headers ++ [id] }
  let header : NativeHeader := { id, module, path }
  modify fun p => { p with headers := p.headers ++ [header] }
  return id

/-- Adds a class, and its name to the types. -/
def registerClass (module : ModuleId) (name nativeName : String) : Edit Package ClassId := do
  let p ← get
  let _ ← p.getModule module
  let id : ClassId := ⟨p.classes.length⟩
  let _ ← editTypes (TypeTable.register (.ofName name (.boundClass id)))
  let c : NativeClass := { id, name, nativeName, module }
  modify fun p => { p with classes := p.classes ++ [c], classIds := p.classIds.insert name id }
  editModule module fun m => { m with classes := m.classes ++ [id] }
  return id

/-- Adds an enumeration to the types. -/
def registerEnumeration (module : ModuleId) (name : String) : Edit Package TypeHash := do
  let _ ← (← get).getModule module
  let hash ← editTypes (TypeTable.register (.ofName name (.enumeration module)))
  editModule module fun m => { m with enumerations := m.enumerations ++ [name] }
  return hash

/-- Makes a new name lead to the type that `target` names. -/
def registerAlias (name target : String) : Edit Package TypeHash :=
  editTypes (TypeTable.registerAlias name target)

/-! ## Classes already there -/

/-- Edits the class at a position, which has to exist and not to be finalized. -/
def editClass {α : Type} (id : ClassId) (edit : Edit NativeClass α) : Edit Package α := fun p =>
  match p.class? id with
  | none => .error (.classNotFound id.text) p
  | some c =>
    if c.isFinalized then .error (.classFinalized c.name) p
    else Edit.within (fun _ => c) (fun c p => p.putClass id c) edit p

/-- Replaces the class at a position by another entry as a whole. -/
def replaceClass (id : ClassId) (entry : NativeClass) : Edit Package Unit :=
  editClass id (set entry)

/-- Records the header that declares a class. -/
def setClassHeader (id : ClassId) (header : HeaderId) : Edit Package Unit := do
  let _ ← (← get).getHeader header
  editClass id (NativeClass.setHeader header)

end ClassBindings.Package
