import ClassBindings.NativeClass
import ClassBindings.Options
import ClassBindings.TypeTable

/-! # Packages

A `Package` owns all that is known of one native library: its modules, the headers they were read
from, its classes, and the types that names lead to.  Modules, headers and classes are referred to
by position.  This module holds the package and what can be read off it. -/
namespace ClassBindings

/-- A part of a package. -/
structure PackageModule where
  id : ModuleId
  name : String
  /-- The headers, in the order of registration. -/
  headers : List HeaderId := []
  /-- The classes, in the order of registration. -/
  classes : List ClassId := []
  /-- The names of the enumerations, in the order of registration. -/
  enumerations : List String := []
deriving DecidableEq

/-- A header that a module was read from. -/
structure NativeHeader where
  id : HeaderId
  module : ModuleId
  path : String
deriving DecidableEq

/-- What follows the last separator of the path, of either kind. -/
def NativeHeader.fileName (header : NativeHeader) : String :=
  let isSeparator (c : Char) : Bool := c = '/' || c = '\\'
  String.ofList (header.path.toList.reverse.takeWhile (!isSeparator ·)).reverse

/-- All that is known of one native library. -/
structure Package where
  name : String
  options : Options := {}
  modules : List PackageModule := []
  headers : List NativeHeader := []
  classes : List NativeClass := []
  /-- The position at which each class name was registered. -/
  classIds : Dictionary String ClassId := .empty
  types : TypeTable := .builtins
deriving DecidableEq

namespace Package

/-! ## Classes -/

/-- The class at a position. -/
def class? (p : Package) (id : ClassId) : Option NativeClass := p.classes[id.index]?

/-- The class at a position, which has to exist. -/
def getClass (p : Package) (id : ClassId) : Except BindError NativeClass :=
  match p.class? id with
  | some c => .ok c
  | none => .error (.classNotFound id.text)

/-- The position at which a class name was registered. -/
def classId? (p : Package) (name : String) : Option ClassId := p.classIds.find? name

/-- The class at the position at which its name was registered. -/
def classNamed? (p : Package) (name : String) : Option NativeClass :=
  (p.classId? name).bind p.class?

/-- The package with another class at a position. -/
def putClass (p : Package) (id : ClassId) (c : NativeClass) : Package :=
  { p with classes := p.classes.set id.index c }

theorem lt_length_of_class? {p : Package} {id : ClassId} {c : NativeClass}
    (h : p.class? id = some c) : id.index < p.classes.length :=
  (List.getElem?_eq_some_iff.1 h).1

theorem mem_classes_of_class? {p : Package} {id : ClassId} {c : NativeClass}
    (h : p.class? id = some c) : c ∈ p.classes := List.mem_of_getElem? h

@[simp] theorem length_putClass (p : Package) (id : ClassId) (c : NativeClass) :
    (p.putClass id c).classes.length = p.classes.length := List.length_set

@[simp] theorem options_putClass (p : Package) (id : ClassId) (c : NativeClass) :
    (p.putClass id c).options = p.options := rfl

/-- A class put where there was one is found there. -/
theorem class?_putClass_self {p : Package} {id : ClassId} {old : NativeClass}
    (h : p.class? id = some old) (c : NativeClass) : (p.putClass id c).class? id = some c := by
  simp [class?, putClass, lt_length_of_class? h]

theorem class?_putClass_of_ne {id id' : ClassId} (h : id' ≠ id) (p : Package) (c : NativeClass) :
    (p.putClass id c).class? id' = p.class? id' := by
  have hne : id.index ≠ id'.index := fun he => h (by cases id; cases id'; simp_all)
  simp [class?, putClass, List.getElem?_set_ne hne]

/-- The class found after one was put: that one at its position, the old one elsewhere. -/
theorem class?_putClass_eq_some {p : Package} {id id' : ClassId} {old c d : NativeClass}
    (hold : p.class? id = some old) (h : (p.putClass id c).class? id' = some d) :
    (id' = id ∧ d = c) ∨ (id' ≠ id ∧ p.class? id' = some d) := by
  by_cases hid : id' = id
  · subst hid
    rw [class?_putClass_self hold] at h
    exact Or.inl ⟨rfl, (Option.some.inj h).symm⟩
  · rw [class?_putClass_of_ne hid] at h
    exact Or.inr ⟨hid, h⟩

theorem getClass_of_class? {p : Package} {id : ClassId} {c : NativeClass}
    (h : p.class? id = some c) : p.getClass id = .ok c := by simp [getClass, h]

theorem getClass_of_none {p : Package} {id : ClassId} (h : p.class? id = none) :
    p.getClass id = .error (.classNotFound id.text) := by simp [getClass, h]

/-! ## Modules and headers -/

/-- The module at a position, which has to exist. -/
def getModule (p : Package) (id : ModuleId) : Except BindError PackageModule :=
  match p.modules[id.index]? with
  | some m => .ok m
  | none => .error (.moduleNotFound id.text)

/-- The header at a position, which has to exist. -/
def getHeader (p : Package) (id : HeaderId) : Except BindError NativeHeader :=
  match p.headers[id.index]? with
  | some h => .ok h
  | none => .error (.headerNotFound id.text)

/-- The module that a class belongs to. -/
def moduleOf (p : Package) (id : ClassId) : Except BindError PackageModule := do
  p.getModule (← p.getClass id).module

/-! ## Types -/

/-- The identity behind a written type. -/
def resolveType (p : Package) (name : String) : Option TypeHash := p.types.resolve name

/-- The canonical name of a type. -/
def typeName? (p : Package) (hash : TypeHash) : Option String := p.types.nameOf? hash

end Package

end ClassBindings
