import ClassBindings.Proofs.Earlier
import ClassBindings.Property.Synthesis

/-! # What a run of writes leaves in a property map

A property map is written to by attaching methods, one at a time; each attachment looks its property
up, adds it if need be, and answers with the method that it replaces.  From the empty map on all of
that can be read off the list of the claims that were made (`PropertyMap.attachEach`): the
properties are those claimed, each once, in the order of the first claims (`keys_attachEach`); a
slot has the method of the last claim to it (`slot_attachEach`); and what a claim replaced is the
method of the last claim before it to its slot (`replaced_attachEach`). -/
namespace ClassBindings

/-- First occurrences, one member more. -/
theorem eraseDups_concat {α : Type} [DecidableEq α] (xs : List α) (x : α) :
    (xs ++ [x]).eraseDups = if x ∈ xs then xs.eraseDups else xs.eraseDups ++ [x] := by
  rw [List.eraseDups_append, List.removeAll]
  by_cases h : x ∈ xs <;> simp [h, List.eraseDups_cons]

/-! ## Claims -/

/-- The claim is to this slot. -/
def Observation.isFor (slot : String × AccessorRole) (o : Observation) : Bool :=
  (o.property, o.role) = slot

namespace Synthesis

/-- The method of the last of these claims to a slot. -/
def lastMethod? (claims : List Observation) (name : String) (role : AccessorRole) :
    Option MethodId :=
  (claims.reverse.find? (·.isFor (name, role))).map (·.method)

/-- One claim more. -/
theorem lastMethod?_concat (claims : List Observation) (o : Observation) (name : String)
    (role : AccessorRole) :
    lastMethod? (claims ++ [o]) name role =
      if name = o.property ∧ role = o.role then some o.method
      else lastMethod? claims name role := by
  have hfor : o.isFor (name, role) = decide (name = o.property ∧ role = o.role) := by
    refine decide_eq_decide.2 ?_
    rw [Prod.mk.injEq, @eq_comm _ o.property, @eq_comm _ o.role]
  rw [lastMethod?, List.reverse_append, List.reverse_singleton, List.singleton_append,
    List.find?_cons, hfor]
  by_cases h : name = o.property ∧ role = o.role <;> simp [h, lastMethod?]

end Synthesis

namespace PropertyMap

open Synthesis (lastMethod? lastMethod?_concat)

variable {properties : PropertyMap} {name : String} {accessors : Accessors}

/-! ## Maps by their slots -/

theorem accessors_eq_slots (h : properties.find? name = some accessors) :
    accessors = ⟨properties.slot name .getter, properties.slot name .setter⟩ := by
  rw [slot, slot, h]
  rfl

/-- A property map is known from the order of its names and its slots. -/
theorem entries_eq (properties : PropertyMap) :
    properties.entries = properties.keys.map fun name =>
      (name, ⟨properties.slot name .getter, properties.slot name .setter⟩) := by
  refine properties.toDictionary.entries_eq_map_keys fun name accessors h => ?_
  rw [find?_toDictionary] at h
  exact accessors_eq_slots h

/-- A name is found with its slots, if it is there. -/
theorem get?_eq (properties : PropertyMap) (name : String) :
    properties.get? name = if name ∈ properties.keys then
      some (name, ⟨properties.slot name .getter, properties.slot name .setter⟩) else none := by
  split
  · rename_i hname
    obtain ⟨⟨_, accessors⟩, hentry, rfl⟩ := List.mem_map.1 hname
    rw [← accessors_eq_slots (mem_entries_iff.1 hentry)]
    exact get?_eq_some_iff.2 ⟨hentry, rfl⟩
  · rename_i hname
    refine Option.eq_none_iff_forall_ne_some.2 fun entry hentry => hname ?_
    obtain ⟨hmem, rfl⟩ := get?_eq_some_iff.1 hentry
    exact List.mem_map_of_mem hmem

/-! ## Runs -/

/-- The map after these claims are attached to the empty one in turn, and what each of them
replaced. -/
def attachEach (claims : List Observation) : PropertyMap × List (Option MethodId) :=
  claims.foldl (fun (properties, answers) o =>
    let (properties, replaced) := properties.attach o.property o.role o.method
    (properties, answers ++ [replaced])) (.empty, [])

/-- One claim more. -/
theorem attachEach_concat (claims : List Observation) (o : Observation) :
    attachEach (claims ++ [o]) =
      (((attachEach claims).1.attach o.property o.role o.method).1,
        (attachEach claims).2 ++
          [((attachEach claims).1.attach o.property o.role o.method).2]) := by
  rw [attachEach, attachEach, List.foldl_append]
  rfl

/-- **Properties are listed by their first claims.** -/
theorem keys_attachEach (claims : List Observation) :
    (attachEach claims).1.keys = (claims.map (·.property)).eraseDups := by
  induction claims using List.reverseRecOn with
  | nil => rfl
  | append_singleton claims o ih =>
    rw [attachEach_concat, keys_attach, ih, List.map_append, List.map_singleton, eraseDups_concat]
    simp only [List.mem_eraseDups]

/-- **A slot holds the last claim to it.** -/
theorem slot_attachEach (claims : List Observation) (name : String) (role : AccessorRole) :
    (attachEach claims).1.slot name role = lastMethod? claims name role := by
  induction claims using List.reverseRecOn with
  | nil => rfl
  | append_singleton claims o ih => rw [attachEach_concat, slot_attach, ih, lastMethod?_concat]

/-- **A claim replaces the last one before it** to its slot. -/
theorem replaced_attachEach (claims : List Observation) :
    (attachEach claims).2 =
      mapWithEarlier (fun earlier o => lastMethod? earlier o.property o.role) claims := by
  induction claims using List.reverseRecOn with
  | nil => rfl
  | append_singleton claims o ih =>
    rw [attachEach_concat, mapWithEarlier_concat, ih, attach_snd, slot_attachEach]

/-- **A property map keeps last writes in the order of first ones.**  Let claims be attached to the
empty map in turn.  The names are those claimed, each once, in the order of the first claims, and
they are the ones found.  Each is found under itself, with the method of the last claim to either
slot, or nothing where there was none; and each claim was answered with the method of the last claim
before it to its slot.  The index leads from a name to a position exactly if that is in the list and
has the entry of the name. -/
theorem attachEach_exact (claims : List Observation) :
    let properties := (attachEach claims).1
    properties.keys = (claims.map (·.property)).eraseDups ∧
    (∀ name, properties.contains name ↔ name ∈ claims.map (·.property)) ∧
    (∀ name, properties.get? name = if name ∈ claims.map (·.property) then
      some (name, ⟨lastMethod? claims name .getter, lastMethod? claims name .setter⟩) else none) ∧
    (∀ name role, properties.slot name role = lastMethod? claims name role) ∧
    (attachEach claims).2 =
      mapWithEarlier (fun earlier o => lastMethod? earlier o.property o.role) claims ∧
    ∀ name i, properties.index.find? name = some i ↔
      ∃ h : i < properties.entries.length, properties.entries[i].1 = name := by
  intro properties
  have hkeys : properties.keys = (claims.map (·.property)).eraseDups := keys_attachEach claims
  have hmem (name : String) : name ∈ properties.keys ↔ name ∈ claims.map (·.property) := by
    rw [hkeys, List.mem_eraseDups]
  refine ⟨hkeys, fun name => contains_iff.trans (hmem name), fun name => ?_,
    slot_attachEach claims, replaced_attachEach claims, fun name i => ?_⟩
  · rw [get?_eq, slot_attachEach, slot_attachEach]
    simp only [hmem]
  · rw [properties.index_eq_some_iff, List.getElem?_eq_some_iff]
    simp

/-- A getter takes the slot of another, and a setter comes to a property that is there. -/
example :
    (attachEach [⟨"Z", .getter, ⟨0⟩⟩, ⟨"A", .getter, ⟨1⟩⟩, ⟨"Z", .setter, ⟨2⟩⟩,
      ⟨"Z", .getter, ⟨3⟩⟩]).1.entries = [("Z", ⟨some ⟨3⟩, some ⟨2⟩⟩), ("A", ⟨some ⟨1⟩, none⟩)] := by
  decide +kernel

end PropertyMap

end ClassBindings
