import ClassBindings.NativeClass.Inheritance
import ClassBindings.Override.Selection
import ClassBindings.Property.Synthesis

/-! # Resolving a class

The three steps from a declaration to what the emitter reads, each a function on the class alone:
`preprocess` tidies the declaration, `process` settles the methods and builds the properties,
`postprocess` checks the result.  That the steps come in order, and after those of the ancestors, is
for the package to see to. -/
namespace ClassBindings.NativeClass

/-- The class without methods that it hides, with accessors recognised by shape if that is wanted,
and with each override parsed, or dropped and reported. -/
def preprocess (resolve : String → Option TypeHash) (options : Options) (c : NativeClass) :
    NativeClass :=
  let visible := c.methods.filter fun m => !m.flags.isSkipped && !c.isSkipped m.name
  let (overrides, dropped) := Override.parseEach resolve c.overrides
  { c with
    methods := if options.inferAccessors then visible.map options.inferAccessor else visible
    overrides
    diagnostics := c.diagnostics ++ dropped
    phase := .preprocessed }

/-- The class without the methods that its ancestors hide, or that an override, its own or
inherited, passes over, and without constructors if it is abstract.  An inherited override need not
fit anything, so that is not reported. -/
def settleMethods (inherited : Inherited) (c : NativeClass) : NativeClass :=
  let visible := c.methods.filter fun m => !inherited.skips.contains m.name
  let own := Selection.ofOverrides visible c.overrides
  let fromBases := Selection.ofOverrides visible inherited.overrides
  let selected := Selection.retain (List.zipWith (· && ·) own.keep fromBases.keep) visible
  { c with
    methods := if c.isAbstract then selected.filter (!·.flags.isConstructor) else selected
    diagnostics := c.diagnostics ++ own.diagnostics ++
      fromBases.diagnostics.filter (!·.isUnmatchedOverride) }

/-- The class with the properties that its methods make, in place of any that it had; so are the
reports on accessors. -/
def rebuildProperties (options : Options) (c : NativeClass) : NativeClass :=
  let built := Synthesis.ofMethods options c.methods
  { c with
    properties := built.properties
    hasProperties := !built.properties.isEmpty
    diagnostics := c.diagnostics.filter (!·.isDuplicateAccessor) ++ built.diagnostics }

/-- The class with its methods settled and its properties built. -/
def process (options : Options) (ancestors : List ClassId) (inObjectHierarchy : Bool)
    (inherited : Inherited) (c : NativeClass) : NativeClass :=
  let c := { c with ancestors, isObject := c.isObject || inObjectHierarchy }
  { (c.settleMethods inherited).rebuildProperties options with phase := .processed }

/-- The class lacks a constructor that it should have: it is not abstract, and its instances do not
travel as numbers. -/
def lacksConstructor (c : NativeClass) : Bool :=
  !c.isAbstract && !c.isNumberArray && c.constructor?.isNone

/-- The class checked and closed. -/
def postprocess (c : NativeClass) : NativeClass :=
  { c with
    hasProperties := !c.properties.isEmpty
    diagnostics := c.diagnostics ++
      if c.lacksConstructor then [.noUsableConstructor c.name] else []
    phase := .finalized }

end ClassBindings.NativeClass
