import ClassBindings.NativeClass

/-! # What a class inherits

A class takes from its ancestors the names they skip and the overrides they chose.  Overrides of
one name come from one place: the class itself if it has any, parsed or not, or else the nearest
ancestor with a parsed one. -/
namespace ClassBindings

/-- What a class takes from its ancestors. -/
structure Inherited where
  skips : List String := []
  overrides : List Override := []
deriving DecidableEq

namespace Inherited

/-- The parsed overrides of a class for names that are not claimed. -/
def offered (claimed : List String) (ancestor : NativeClass) : List Override :=
  ancestor.overrides.filter fun o => o.isParsed && !claimed.contains o.name

/-- The overrides that a list of ancestors, nearest first, leaves to a class for which the names in
`claimed` are settled. -/
def overridesFrom : (claimed : List String) → (ancestors : List NativeClass) → List Override
  | _, [] => []
  | claimed, ancestor :: rest =>
    let own := offered claimed ancestor
    own ++ overridesFrom (claimed ++ own.map (·.name)) rest

/-- What a class takes from its ancestors, nearest first. -/
def collect (c : NativeClass) (ancestors : List NativeClass) : Inherited where
  skips := ancestors.flatMap (·.skips)
  overrides := overridesFrom (c.overrides.map (·.name)) ancestors

end Inherited

end ClassBindings
