import ClassBindings.Method
import ClassBindings.Override

/-! # Selection of overloads

Where an override fits a method of its name, only the methods that some override chose stay under
that name.  Names without an override that fits keep all their methods, so a slip in an override
never hides a method.  `Selection.ofOverrides` decides which methods stay and what there is to
report. -/
namespace ClassBindings

/-- The override names this method: its name and exactly its parameter types.  One that is not
parsed names none. -/
def Override.fits (o : Override) (m : Method) : Bool :=
  o.types?.any fun types => m.name = o.name && m.hasSignature types

/-- Which methods of a list stay, and what there is to report. -/
structure Selection where
  /-- A flag for each method. -/
  keep : List Bool
  diagnostics : List Diagnostic
deriving DecidableEq

namespace Selection

/-- The number of methods that stay. -/
def kept (selection : Selection) : Nat := selection.keep.count true

/-- The report on one parsed override: nothing where exactly one method fits. -/
def report? (methods : List Method) (o : Override) : Option Diagnostic :=
  match methods.countP o.fits with
  | 0 => some (.unmatchedOverride o.name o.signatureText)
  | 1 => none
  | candidates => some (.ambiguousOverride o.name o.signatureText candidates)

/-- The positions that overrides choose: for each, the first method that fits. -/
def chosen (methods : List Method) (overrides : List Override) : List Nat :=
  overrides.filterMap fun o => methods.findIdx? o.fits

/-- The names of the overrides that fit some method. -/
def constrained (methods : List Method) (overrides : List Override) : List String :=
  (overrides.filter fun o => methods.any o.fits).map (·.name)

/-- Matches overrides against methods. -/
def ofOverrides (methods : List Method) (overrides : List Override) : Selection where
  keep := methods.mapIdx fun i m =>
    (chosen methods overrides).contains i || !(constrained methods overrides).contains m.name
  diagnostics := (overrides.filter (·.isParsed)).filterMap (report? methods)

/-- The members of a list whose flag is set; those beyond the flags stay. -/
def retain {α : Type} : (keep : List Bool) → List α → List α
  | _, [] => []
  | [], xs => xs
  | k :: keep, x :: xs => if k then x :: retain keep xs else retain keep xs

end Selection

end ClassBindings
