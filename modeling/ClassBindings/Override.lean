import ClassBindings.Edit
import ClassBindings.TypeName
import ClassBindings.Diagnostic
import ClassBindings.TypeHash

/-! # Overrides

Not every overload of a method can be bound; an `Override` names the one that is, by the types of
its parameters.  The types are written as text and given their meaning later (`Override.parse`), all
of them or none: `signatureTypes` yields either every type or the first token without a meaning. -/
namespace ClassBindings

/-- The choice of one overload. -/
structure Override where
  /-- The method's name. -/
  name : String
  /-- The parameter types, as written. -/
  signature : List String
  /-- The parameter types, once they are known. -/
  types? : Option (List TypeHash) := none
deriving DecidableEq

/-- The types that a list of tokens names, or the first token that names none. -/
def signatureTypes (resolve : String → Option TypeHash) :
    List String → Except String (List TypeHash)
  | [] => .ok []
  | token :: rest =>
    match resolve (TypeName.normalize token) with
    | some hash => (signatureTypes resolve rest).map (hash :: ·)
    | none => .error token

namespace Override

/-- The parameter types are known. -/
def isParsed (o : Override) : Bool := o.types?.isSome

/-- The parameter types; none until they are known. -/
def types (o : Override) : List TypeHash := o.types?.getD []

/-- The written parameter types as one text. -/
def signatureText (o : Override) : String := ", ".intercalate o.signature

/-- The override with its types known, or the first token without a meaning.  What is known stays as
it is. -/
def resolved (resolve : String → Option TypeHash) (o : Override) : Except String Override :=
  if o.isParsed then .ok o
  else (signatureTypes resolve o.signature).map fun types => { o with types? := some types }

/-- Gives the written types their meaning. -/
def parse (resolve : String → Option TypeHash) : Edit Override Unit := do
  let o ← get
  match o.resolved resolve with
  | .ok o' => set o'
  | .error token => throw (.unresolvedType o.name token)

/-- Parses each override; one that cannot be parsed is left out and reported. -/
def parseEach (resolve : String → Option TypeHash) :
    List Override → List Override × List Diagnostic
  | [] => ([], [])
  | o :: rest =>
    let (kept, dropped) := parseEach resolve rest
    match o.resolved resolve with
    | .ok o' => (o' :: kept, dropped)
    | .error token => (kept, .unresolvedOverrideType o.name token :: dropped)

end Override

end ClassBindings
