import ClassBindings.Package
import ClassBindings.Text.Quoted

/-! # Describing a package

`NativeClass.describe` writes a class as text, line by line, with names found in a package; what
the package does not know is written by its number.  `Package.summary` is one line on a whole
package. -/
namespace ClassBindings

namespace Package

/-- The name of a type, or its hash where it has none. -/
def typeText (p : Package) (hash : TypeHash) : String := (p.typeName? hash).getD hash.text

/-- The name of a class, or its number where there is none. -/
def classText (p : Package) (id : ClassId) : String := ((p.class? id).map (·.name)).getD id.text

/-- The size of the package, for debugging. -/
def summary (p : Package) : String :=
  s!"Package \x7b name: {Text.quoted p.name}, modules: {p.modules.length}, " ++
    s!"headers: {p.headers.length}, classes: {p.classes.length}, types: {p.types.size} \x7d"

end Package

/-- A method as it would be declared, with its marks. -/
def Method.describe (p : Package) (m : Method) : String :=
  let returns := (m.returns.map p.typeText).getD "void"
  let params := ", ".intercalate (m.paramTypes.map p.typeText)
  let marks := if m.flags = .empty then "" else s!" [{m.flags.debugText}]"
  s!"    {returns} {m.name}({params}){marks}"

namespace NativeClass

/-- The module, and the header where it is known. -/
def originLine (p : Package) (c : NativeClass) : String :=
  let module := match p.getModule c.module with
    | .ok m => m.name
    | .error _ => "?"
  let header := match c.header.map p.getHeader with
    | some (.ok h) => s!", header: {h.path}"
    | _ => ""
  s!"  module: {module}{header}"

/-- What is marked about the class as a whole. -/
def flagTexts (c : NativeClass) : List String :=
  (if c.isAbstract then ["abstract"] else []) ++ (if c.isObject then ["object"] else []) ++
    match c.arrayHint with
    | some hint => [s!"number-array[{hint.elements} x {hint.elementType}]"]
    | none => []

/-- A line for what is marked about the class, unless nothing is. -/
def flagLines (c : NativeClass) : List String :=
  if c.flagTexts.isEmpty then [] else ["  flags: " ++ ", ".intercalate c.flagTexts]

/-- A line for the ancestors, or for the base alone as long as they are not known. -/
def baseLines (p : Package) (c : NativeClass) : List String :=
  match c.base with
  | none => []
  | some base =>
    let chain := if c.ancestors.isEmpty then [base] else c.ancestors
    ["  bases: " ++ " -> ".intercalate (chain.map p.classText)]

/-- Lines under a heading, unless there are none. -/
def titled (heading : String) (lines : List String) : List String :=
  if lines.isEmpty then [] else heading :: lines

/-- The class as a list of lines. -/
def describeLines (p : Package) (c : NativeClass) : List String :=
  [s!"class {c.name} ({c.nativeName})", c.originLine p, s!"  phase: {c.phase.text}"] ++
    c.flagLines ++ c.baseLines p ++
    titled "  functions:" (c.methods.map (·.describe p)) ++
    titled "  overrides:" (c.overrides.map fun o => s!"    {o.name}({o.signatureText})") ++
    (if c.hasProperties then
      "  properties:" :: c.properties.entries.map fun (name, accessors) =>
        s!"    {name} ({accessors.accessText})"
    else []) ++
    c.diagnostics.map (s!"  warning: {·.message}")

/-- The class as text, each line ended, with names found in a package. -/
def describe (p : Package) (c : NativeClass) : String :=
  String.join ((c.describeLines p).map (· ++ "\n"))

end NativeClass

end ClassBindings
