import ClassBindings.LinkGraph.TopologicalOrder
import ClassBindings.Package.Resolution

/-! # Resolving a whole package

`resolutionOrder` lists the classes of a package so that each comes after its base, and `resolveAll`
resolves them in that order.  A class that cannot be resolved is reported and the others still are;
bases that form a loop leave no order, and then nothing is resolved. -/
namespace ClassBindings

/-- Why there is no resolution order. -/
inductive OrderFault where
  /-- The base links form a loop through this class. -/
  | loop (id : ClassId)
  /-- An entry carries an identifier for which there is no position, so its link has no target. -/
  | stray (id : ClassId)
deriving DecidableEq

/-- What a resolution of a whole package did. -/
structure Report where
  /-- The number of classes that are finalized. -/
  resolved : Nat := 0
  /-- The diagnostics of every class, in the order of resolution. -/
  diagnostics : List (ClassId × Diagnostic) := []
  /-- The classes that could not be resolved to the end. -/
  errors : List (ClassId × BindError) := []
deriving DecidableEq

namespace Report

/-- Nothing was refused. -/
def isSuccess (report : Report) : Bool := report.errors.isEmpty

/-- The diagnostics of one class. -/
def diagnosticsFor (report : Report) (id : ClassId) : List Diagnostic :=
  (report.diagnostics.filter (·.1 = id)).map (·.2)

end Report

namespace Package

/-! ## The order -/

/-- The links from bases to the classes derived from them, by position.  A base at no position makes
no link; the target of a link is the position that the derived entry carries. -/
def baseLinks (p : Package) : List NativeClass → Except OrderFault (List (Nat × Nat))
  | [] => .ok []
  | c :: rest =>
    match c.base with
    | some base =>
      if base.index < p.classes.length then
        if c.id.index < p.classes.length then
          (p.baseLinks rest).map ((base.index, c.id.index) :: ·)
        else .error (.stray c.id)
      else p.baseLinks rest
    | none => p.baseLinks rest

/-- The identifier that the entry at a position carries. -/
def carriedId (p : Package) (position : Nat) : ClassId :=
  (p.classes[position]?.map (·.id)).getD ⟨position⟩

/-- The identifiers that the entries carry, each after that of its base. -/
def resolutionOrder (p : Package) : Except OrderFault (List ClassId) := do
  let links ← p.baseLinks p.classes
  match LinkGraph.topologicalOrder ⟨p.classes.length, links⟩ with
  | .ok order => .ok (order.map p.carriedId)
  | .error node => .error (.loop (p.carriedId node))

/-! ## The run -/

/-- Resolves one class as far as it goes, and adds what came of it to the report. -/
def resolveNext (report : Report) (id : ClassId) (p : Package) : Report × Package :=
  let (errors, p) := match resolveClass id p with
    | .ok _ p => ([], p)
    | .error e p => ([(id, e)], p)
  let report := { report with errors := report.errors ++ errors }
  match p.class? id with
  | none => (report, p)
  | some c =>
    ({ report with
        resolved := if c.isFinalized then report.resolved + 1 else report.resolved
        diagnostics := report.diagnostics ++ c.diagnostics.map (id, ·) }, p)

/-- Resolves classes one after another. -/
def resolveEach (ids : List ClassId) (p : Package) : Report × Package :=
  ids.foldl (fun (report, p) id => resolveNext report id p) ({}, p)

/-- The report on bases that form a loop through a class, which stands for both ends of the link. -/
def loopReport (p : Package) (id : ClassId) : Report :=
  let name := ((p.class? id).map (·.name)).getD ""
  { errors := [(id, .circularBaseClass name name)] }

/-- Resolves every class, bases first.  It is refused only where an entry carries an identifier for
which there is no position; that one is named. -/
def resolveAll : EStateM ClassId Package Report := fun p =>
  match p.resolutionOrder with
  | .ok ids =>
    let (report, p) := resolveEach ids p
    .ok report p
  | .error (.loop id) => .ok (p.loopReport id) p
  | .error (.stray id) => .error id p

end Package

end ClassBindings
