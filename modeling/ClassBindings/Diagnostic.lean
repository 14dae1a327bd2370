import ClassBindings.AccessorRole

/-! # Diagnostics

A `Diagnostic` records a decision that resolution took on a class without giving up on it. -/
namespace ClassBindings

/-- What resolution noticed about a class. -/
inductive Diagnostic where
  /-- An override was dropped, for the first of its types without a meaning. -/
  | unresolvedOverrideType (method token : String)
  /-- An override chose no overload, so all of them stay. -/
  | unmatchedOverride (method signature : String)
  /-- An override fits several overloads, of which the first stays. -/
  | ambiguousOverride (method signature : String) (candidates : Nat)
  /-- A later accessor took the place of an earlier one. -/
  | duplicateAccessor (property : String) (role : AccessorRole) (replaced replacement : String)
  /-- A class that should be constructible is not. -/
  | noUsableConstructor (className : String)
deriving DecidableEq

namespace Diagnostic

/-- The finding in words. -/
def message : Diagnostic → String
  | unresolvedOverrideType method token =>
    s!"override '{method}' dropped: unresolved type '{token}'"
  | unmatchedOverride method signature => s!"override '{method}({signature})' matches no overload"
  | ambiguousOverride method signature candidates =>
    s!"override '{method}({signature})' matches {candidates} overloads, keeping the first"
  | duplicateAccessor property role replaced replacement =>
    s!"property '{property}': {role.text} '{replaced}' replaced by '{replacement}'"
  | noUsableConstructor className => s!"class '{className}' has no usable constructor"

/-- The diagnostic speaks of an override that chose nothing. -/
def isUnmatchedOverride : Diagnostic → Bool
  | unmatchedOverride .. => true
  | _ => false

/-- The diagnostic speaks of an accessor that lost its place. -/
def isDuplicateAccessor : Diagnostic → Bool
  | duplicateAccessor .. => true
  | _ => false

end Diagnostic

end ClassBindings
