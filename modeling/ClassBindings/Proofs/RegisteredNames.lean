import ClassBindings.Proofs.BaseNames
import ClassBindings.Proofs.TypeNames

/-! # Finding what was registered

A registration stores the name as it is given, and what is looked up is a normal form.  So a new
name is found under every written type of which it is the normal form (`Package.FindsAs`), and that
is under itself exactly if it is bare.  The check of a registration does not ask for that: a class
called `Node*` is registered, and its name is looked up as `Node`; an alias `void*` of an integer is
registered, and `void*` stays `void` (`registered_unfound`).

What holds of every name is `HasHistory.registered_found_iff`. -/
namespace ClassBindings

namespace Package

variable {p q : Package} {module : ModuleId} {name nativeName target token : String}
  {hash : TypeHash} {id : ClassId}

/-- After the step the name leads to this identity, under every written type of which it is the
normal form; all other written types resolve as before. -/
def FindsAs (p q : Package) (name : String) (hash : TypeHash) : Prop :=
  ∀ token, q.resolveType token =
    if TypeName.normalize token = name then some hash else p.resolveType token

/-- Under itself a name is found exactly if it is bare, or if what its normal form led to before is
the same type. -/
theorem FindsAs.self_iff (h : p.FindsAs q name hash) :
    q.resolveType name = some hash ↔ TypeName.IsBare name ∨ p.resolveType name = some hash := by
  rw [h name, ← TypeName.normalize_eq_self_iff]
  by_cases hself : TypeName.normalize name = name <;> simp [hself]

/-! ## Registrations that are carried out -/

/-- A registered class is a new type, found as its name. -/
theorem registerClass_ok (h : registerClass module name nativeName p = .ok id q) :
    p.types.Vacant (.ofName name (.boundClass id)) ∧
      q.types = p.types.insert (.ofName name (.boundClass id)) := by
  rcases registerClass_cases module name nativeName p with ⟨e, he⟩ | ⟨m, _, hvacant, hok⟩
  · rw [he] at h
    cases h
  · rw [hok] at h
    cases h
    exact ⟨hvacant, rfl⟩

/-- A registered enumeration is a new type, found as its name. -/
theorem registerEnumeration_ok (h : registerEnumeration module name p = .ok hash q) :
    hash = .ofName name ∧ p.types.Vacant (.ofName name (.enumeration module)) ∧
      q.types = p.types.insert (.ofName name (.enumeration module)) := by
  rcases registerEnumeration_cases module name p with ⟨e, he⟩ | ⟨m, _, hvacant, hok⟩
  · rw [he] at h
    cases h
  · rw [hok] at h
    cases h
    exact ⟨rfl, hvacant, rfl⟩

/-- A registered alias is a new name of a type. -/
theorem registerAlias_ok (h : registerAlias name target p = .ok hash q) :
    p.resolveType target = some hash ∧ p.FindsAs q name hash := by
  rcases registerAlias_cases name target p with ⟨e, he⟩ | ⟨found, _, htarget, hok⟩
  · rw [he] at h
    cases h
  · rw [hok] at h
    cases h
    exact ⟨htarget, TypeTable.resolve_of_names rfl⟩

/-- **A new type is found under its own name exactly if that is bare**: no name led to it before. -/
theorem found_iff_of_insert {entry : TypeEntry} (hclosed : p.types.Closed)
    (hvacant : p.types.Vacant entry) (hq : q.types = p.types.insert entry) :
    q.types.get? entry.hash = some entry ∧ p.FindsAs q entry.name entry.hash ∧
      (q.resolveType entry.name = some entry.hash ↔ TypeName.IsBare entry.name) := by
  have hfinds : p.FindsAs q entry.name entry.hash :=
    TypeTable.resolve_of_names (by rw [hq, TypeTable.insert])
  have hfresh : p.resolveType entry.name ≠ some entry.hash := by
    intro hbefore
    obtain ⟨old, hold⟩ := hclosed _ _ hbefore
    exact hvacant.hash (Option.isSome_iff_exists.2 ⟨old, hold⟩)
  refine ⟨?_, hfinds, ?_⟩
  · rw [hq, TypeTable.get?, TypeTable.insert, Dictionary.find?_insert, if_pos rfl]
  · rw [hfinds.self_iff, or_iff_left hfresh]

/-- **A registered name is found exactly if it is bare.**  Let a package have any history, and let a
class, an enumeration or an alias be registered.  Then every written type of which the name is the
normal form resolves to what was registered, and every other one to what it resolved to before.  So
a class and an enumeration are found under their own names exactly if these have no qualifiers and
no blanks around them, and an alias also where it is a written form of the type that it names. -/
theorem HasHistory.registered_found_iff (h : p.HasHistory) :
    (∀ module name nativeName id q, registerClass module name nativeName p = .ok id q →
      q.types.get? (.ofName name) = some (.ofName name (.boundClass id)) ∧
        p.FindsAs q name (.ofName name) ∧
        (q.resolveType name = some (.ofName name) ↔ TypeName.IsBare name)) ∧
    (∀ module name hash q, registerEnumeration module name p = .ok hash q →
      q.types.get? hash = some (.ofName name (.enumeration module)) ∧ p.FindsAs q name hash ∧
        (q.resolveType name = some hash ↔ TypeName.IsBare name)) ∧
    ∀ name target hash q, registerAlias name target p = .ok hash q →
      p.resolveType target = some hash ∧ p.FindsAs q name hash ∧
        (q.resolveType name = some hash ↔
          TypeName.IsBare name ∨ p.resolveType name = some hash) := by
  refine ⟨fun module name nativeName id q hok => ?_, fun module name hash q hok => ?_,
    fun name target hash q hok => ?_⟩
  · obtain ⟨hvacant, hq⟩ := registerClass_ok hok
    exact found_iff_of_insert h.closed hvacant hq
  · obtain ⟨rfl, hvacant, hq⟩ := registerEnumeration_ok hok
    exact found_iff_of_insert h.closed hvacant hq
  · obtain ⟨htarget, hfinds⟩ := registerAlias_ok hok
    exact ⟨htarget, hfinds, hfinds.self_iff⟩

/-- Lights, their kinds and a pointer to nodes are registered among the nodes and meshes.  The first
two are found under their names, which are bare; the pointer is found although its name is not,
since that led to nodes before. -/
theorem registered_found_iff_light :
    (∃ id q, registerClass ⟨0⟩ "Light" "scene::Light" meshPackage = .ok id q ∧
      q.resolveType "Light" = some (.ofName "Light")) ∧
    (∃ hash q, registerEnumeration ⟨0⟩ "LightKind" meshPackage = .ok hash q ∧
      q.resolveType "LightKind" = some hash) ∧
    ∃ hash q, registerAlias "Node*" "Node" meshPackage = .ok hash q ∧
      ¬TypeName.IsBare "Node*" ∧ q.resolveType "Node*" = some hash := by
  have hfound := reachable_meshPackage.hasHistory.registered_found_iff
  refine ⟨?_, ?_, ?_⟩
  · obtain ⟨id, q, hok⟩ := Edit.exists_of_isOk
      (by decide +kernel : (registerClass ⟨0⟩ "Light" "scene::Light").isOk meshPackage)
    exact ⟨id, q, hok, (hfound.1 _ _ _ _ _ hok).2.2.2 (by decide)⟩
  · obtain ⟨hash, q, hok⟩ := Edit.exists_of_isOk
      (by decide +kernel : (registerEnumeration ⟨0⟩ "LightKind").isOk meshPackage)
    exact ⟨hash, q, hok, (hfound.2.1 _ _ _ _ hok).2.2.2 (by decide)⟩
  · obtain ⟨hash, q, hok⟩ := Edit.exists_of_isOk
      (by decide +kernel : (registerAlias "Node*" "Node").isOk meshPackage)
    obtain ⟨htarget, _, hiff⟩ := hfound.2.2 _ _ _ _ hok
    have hsame : meshPackage.resolveType "Node*" = meshPackage.resolveType "Node" := by
      decide +kernel
    exact ⟨hash, q, hok, by decide, hiff.2 (Or.inr (hsame.trans htarget))⟩

/-- A name whose normal form is another one is looked up as that one, as before. -/
theorem FindsAs.self_of_ne (h : p.FindsAs q name hash) (hne : TypeName.normalize name ≠ name) :
    q.resolveType name = p.resolveType name := by
  rw [h name, if_neg hne]

/-- **Registered and not found.**  An alias `void*` of an integer is registered, and the name leads
to `void`.  A class `Node*` is registered, and the name leads to the class `Node`. -/
theorem registered_unfound :
    (∃ q, registerAlias "void*" "uint64" meshPackage = .ok Primitive.uint64.hash q ∧
      q.resolveType "void*" = some Primitive.void.hash) ∧
    (∃ id q, registerClass ⟨0⟩ "Node*" "scene::NodePtr" meshPackage = .ok id q ∧
      q.types.get? (.ofName "Node*") = some (.ofName "Node*" (.boundClass id)) ∧
      q.resolveType "Node*" = some (.ofName "Node")) ∧
    ¬∀ (p : Package) name target hash q, p.Reachable → registerAlias name target p = .ok hash q →
      q.resolveType name = some hash := by
  have halias : ∃ q, registerAlias "void*" "uint64" meshPackage = .ok Primitive.uint64.hash q ∧
      q.resolveType "void*" = some Primitive.void.hash := by
    obtain ⟨hash, q, hok⟩ := Edit.exists_of_isOk
      (by decide +kernel : (registerAlias "void*" "uint64").isOk meshPackage)
    obtain ⟨htarget, hfinds⟩ := registerAlias_ok hok
    have hinteger : meshPackage.resolveType "uint64" = some Primitive.uint64.hash := by
      decide +kernel
    have hvoid : meshPackage.resolveType "void*" = some Primitive.void.hash := by decide +kernel
    cases htarget.symm.trans hinteger
    exact ⟨q, hok, (hfinds.self_of_ne (by decide +kernel)).trans hvoid⟩
  refine ⟨halias, ?_, fun h => ?_⟩
  · obtain ⟨id, q, hok⟩ := Edit.exists_of_isOk
      (by decide +kernel : (registerClass ⟨0⟩ "Node*" "scene::NodePtr").isOk meshPackage)
    obtain ⟨hvacant, hq⟩ := registerClass_ok hok
    obtain ⟨htyped, hfinds, _⟩ :=
      found_iff_of_insert reachable_meshPackage.hasHistory.closed hvacant hq
    have hne : TypeName.normalize "Node*" ≠ "Node*" := by decide +kernel
    have hnode : meshPackage.resolveType "Node*" = some (.ofName "Node") := by decide +kernel
    exact ⟨id, q, hok, htyped, (hfinds.self_of_ne hne).trans hnode⟩
  · obtain ⟨q, hok, hvoid⟩ := halias
    have hfound := h _ _ _ _ _ reachable_meshPackage hok
    rw [hvoid] at hfound
    exact absurd hfound (by decide +kernel)

end Package

end ClassBindings
