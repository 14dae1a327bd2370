/-! # Accessor roles

A property is read by one method and written by another. -/
namespace ClassBindings

/-- What an accessor does to its property. -/
inductive AccessorRole where
  | getter
  | setter
deriving DecidableEq

/-- The role in a message. -/
def AccessorRole.text : AccessorRole → String
  | getter => "getter"
  | setter => "setter"

end ClassBindings
