import ClassBindings.Package

/-! # Base classes

Each class has at most one base, so the classes met by following bases form a chain
(`ancestorChain`).  `setBase` refuses a base that would close the chain to a loop.  A chain is
walked with the classes already met kept aside, so the walk ends even where bases do form a loop.
-/
namespace ClassBindings.Package

/-- The positions of classes that are not in `seen`. -/
def unseen (p : Package) (seen : List ClassId) : List Nat :=
  (List.range p.classes.length).filter fun i => !seen.contains ⟨i⟩

theorem length_unseen_lt {p : Package} {seen : List ClassId} {id : ClassId} {c : NativeClass}
    (hid : id ∉ seen) (hc : p.class? id = some c) :
    (p.unseen (id :: seen)).length < (p.unseen seen).length := by
  have hlt : id.index < p.classes.length := (List.getElem?_eq_some_iff.1 hc).1
  have hmem : id.index ∈ p.unseen seen := by simpa [unseen, hlt] using hid
  have hsub : p.unseen (id :: seen) = (p.unseen seen).filter fun i => i ≠ id.index := by
    rcases id with ⟨k⟩
    simp only [unseen, List.filter_filter]
    refine List.filter_congr fun i _ => ?_
    simp
  rw [hsub]
  refine List.length_filter_lt_length_iff_exists.2 ⟨id.index, hmem, by simp⟩

/-- The classes met from `next` on by following bases, up to the first that is in `seen` or met
again. -/
def chainFrom (p : Package) (seen : List ClassId) (next : Option ClassId) :
    Except BindError (List ClassId) :=
  match next with
  | none => .ok []
  | some id =>
    if _hid : id ∈ seen then .ok []
    else
      match _hc : p.class? id with
      | none => .error (.classNotFound id.text)
      | some c => (p.chainFrom (id :: seen) c.base).map (id :: ·)
termination_by (p.unseen seen).length
decreasing_by exact length_unseen_lt _hid _hc

/-- The ancestors of a class, nearest first, each once. -/
def ancestorChain (p : Package) (id : ClassId) : Except BindError (List ClassId) := do
  p.chainFrom [id] (← p.getClass id).base

/-- `ancestor` is among the ancestors of the class. -/
def isDerivedFrom (p : Package) (id ancestor : ClassId) : Except BindError Bool :=
  return (← p.ancestorChain id).contains ancestor

/-- A class may get this base: there is none, or it exists and is neither the class itself nor one
of its descendants. -/
def checkBase (p : Package) (c : NativeClass) (id : ClassId) : (base : Option ClassId) →
    Except BindError Unit
  | none => .ok ()
  | some base => do
    let b ← p.getClass base
    let closesLoop ← if base = id then .ok true else p.isDerivedFrom base id
    if closesLoop then .error (.circularBaseClass c.name b.name) else .ok ()

/-- Sets the base of a class that is still being declared, or takes its base away.  A base that is
the class itself or one of its descendants is refused. -/
def setBase (id : ClassId) (base : Option ClassId) : Edit Package Unit := do
  let p ← get
  let c ← p.getClass id
  c.checkDeclared
  p.checkBase c id base
  set (p.putClass id { c with base })

end ClassBindings.Package
