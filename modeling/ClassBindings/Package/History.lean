import ClassBindings.Package.Registration
import ClassBindings.Package.Schedule

/-! # Histories of a package

An `Operation` is anything that a user of a package can do to it.  A history is a list of
operations, carried out one after another on a new package; a refused one leaves what it had
written and the history goes on.  A package is `Reachable` if it has a history without
`replaceClass`, the one operation that puts an entry in place whatever its identifier, base and
phase.  Everything that holds of a new package and is kept by each operation holds of all of them
(`Reachable.induction`).  A package is `Attainable` if entries were at most exchanged between
packages. -/
namespace ClassBindings

/-- Something done to a package. -/
inductive Operation where
  | registerModule (name : String)
  | registerHeader (module : ModuleId) (path : String)
  | registerClass (module : ModuleId) (name nativeName : String)
  | registerEnumeration (module : ModuleId) (name : String)
  | registerAlias (name target : String)
  | setClassHeader (id : ClassId) (header : HeaderId)
  | setBase (id : ClassId) (base : Option ClassId)
  | setAbstract (id : ClassId) (value : Bool)
  | setObject (id : ClassId) (value : Bool)
  | setNumberArray (id : ClassId) (elements : Nat) (elementType : String)
  | setSkip (id : ClassId) (name : String) (skip : Bool)
  | addMethod (id : ClassId) (m : Method)
  | addOverride (id : ClassId) (o : Override)
  | attachAccessor (id : ClassId) (accessor : MethodId) (options : Options)
  | replaceClass (id : ClassId) (entry : NativeClass)
  | preprocess (id : ClassId)
  | process (id : ClassId)
  | postprocess (id : ClassId)
  | resolveClass (id : ClassId)
  | resolveAll
deriving DecidableEq

namespace Operation

/-- The package after an operation, carried out or refused. -/
def apply (p : Package) : Operation → Package
  | registerModule name => Edit.left (Package.registerModule name p)
  | registerHeader module path => Edit.left (Package.registerHeader module path p)
  | registerClass module name nativeName =>
    Edit.left (Package.registerClass module name nativeName p)
  | registerEnumeration module name => Edit.left (Package.registerEnumeration module name p)
  | registerAlias name target => Edit.left (Package.registerAlias name target p)
  | setClassHeader id header => Edit.left (Package.setClassHeader id header p)
  | setBase id base => Edit.left (Package.setBase id base p)
  | setAbstract id value => Edit.left (Package.editClass id (NativeClass.setAbstract value) p)
  | setObject id value => Edit.left (Package.editClass id (NativeClass.setObject value) p)
  | setNumberArray id elements elementType =>
    Edit.left (Package.editClass id (NativeClass.setNumberArray elements elementType) p)
  | setSkip id name skip => Edit.left (Package.editClass id (NativeClass.setSkip name skip) p)
  | addMethod id m => Edit.left (Package.editClass id (NativeClass.addMethod m) p)
  | addOverride id o => Edit.left (Package.editClass id (NativeClass.addOverride o) p)
  | attachAccessor id accessor options =>
    Edit.left (Package.editClass id (NativeClass.attachAccessor accessor options) p)
  | replaceClass id entry => Edit.left (Package.replaceClass id entry p)
  | preprocess id => Edit.left (Package.preprocess id p)
  | process id => Edit.left (Package.process id p)
  | postprocess id => Edit.left (Package.postprocess id p)
  | resolveClass id => Edit.left (Package.resolveClass id p)
  | resolveAll => Edit.left (Package.resolveAll p)

/-- The operation puts a whole entry in place. -/
def isReplacement : Operation → Bool
  | replaceClass .. => true
  | _ => false

/-- The package after a list of operations. -/
def run (p : Package) (operations : List Operation) : Package := operations.foldl apply p

theorem run_append (p : Package) (first second : List Operation) :
    run p (first ++ second) = run (run p first) second := List.foldl_append

end Operation

namespace Package

/-- The package has a history in which no entry was put in place as a whole. -/
def Reachable (p : Package) : Prop :=
  ∃ name options operations, (∀ op ∈ operations, ¬Operation.isReplacement op) ∧
    p = Operation.run { name, options } operations

theorem reachable_new (name : String) (options : Options) :
    Reachable { name, options } := ⟨name, options, [], by simp, rfl⟩

theorem Reachable.run {p : Package} (h : p.Reachable) {later : List Operation}
    (hlater : ∀ op ∈ later, ¬op.isReplacement) : (Operation.run p later).Reachable := by
  obtain ⟨name, options, operations, hops, rfl⟩ := h
  refine ⟨name, options, operations ++ later, fun o ho => ?_, (Operation.run_append ..).symm⟩
  rcases List.mem_append.1 ho with ho | ho
  · exact hops o ho
  · exact hlater o ho

theorem Reachable.apply {p : Package} (h : p.Reachable) {op : Operation}
    (hop : ¬op.isReplacement) : (op.apply p).Reachable := by
  have hops : ∀ o ∈ [op], ¬o.isReplacement := fun o ho => by rwa [List.mem_singleton.1 ho]
  exact h.run hops

/-- **What each operation keeps, every history keeps.** -/
theorem Reachable.induction {motive : Package → Prop}
    (new : ∀ name options, motive { name, options })
    (step : ∀ p op, ¬Operation.isReplacement op → motive p → motive (op.apply p)) {p : Package}
    (h : p.Reachable) : motive p := by
  obtain ⟨name, options, operations, hops, rfl⟩ := h
  suffices ∀ q, motive q → motive (Operation.run q operations) from this _ (new name options)
  induction operations with
  | nil => exact fun q hq => hq
  | cons op rest ih =>
    intro q hq
    exact ih (fun o ho => hops o (List.mem_cons_of_mem _ ho)) _
      (step q op (hops op List.mem_cons_self) hq)

/-- The package has a history in which an entry that was put in place as a whole always came from a
package with such a history. -/
inductive Attainable : Package → Prop
  | new (name : String) (options : Options) : Attainable { name, options }
  | apply {p : Package} {op : Operation} (hp : Attainable p) (hop : ¬op.isReplacement) :
      Attainable (op.apply p)
  | graft {p other : Package} {id source : ClassId} {entry : NativeClass} (hp : Attainable p)
      (hother : Attainable other) (hentry : other.class? source = some entry) :
      Attainable ((Operation.replaceClass id entry).apply p)

theorem Reachable.attainable {p : Package} (h : p.Reachable) : p.Attainable :=
  h.induction .new fun _ _ hop hp => .apply hp hop

end Package

end ClassBindings
