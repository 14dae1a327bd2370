import ClassBindings.AccessorRole
import ClassBindings.Dictionary
import ClassBindings.Identifier

/-! # Properties

A property is a name with up to two accessors, given by their positions in the class.  A
`PropertyMap` lists properties in the order in which they were first written, and has an index from
their names to their positions in that list; `PropertyMap.attach` puts a method in one slot and
returns the method that was there.

The list and the index agree in every map, so that a position from the index is always one of the
list, and that of the name (`index_eq_some_iff_entry`).  Without the index a map is a dictionary,
and attaching is writing to it (`toDictionary_attach`); `slot_attach` says that it is seen in its
slot and nowhere else. -/
namespace ClassBindings

/-- The accessors of one property. -/
structure Accessors where
  getter : Option MethodId := none
  setter : Option MethodId := none
deriving DecidableEq

namespace Accessors

/-- The method in a slot. -/
def slot (accessors : Accessors) : AccessorRole → Option MethodId
  | .getter => accessors.getter
  | .setter => accessors.setter

/-- The accessors with a method in a slot. -/
def put (accessors : Accessors) (id : MethodId) : AccessorRole → Accessors
  | .getter => { accessors with getter := some id }
  | .setter => { accessors with setter := some id }

theorem slot_put (accessors : Accessors) (id : MethodId) (role role' : AccessorRole) :
    (accessors.put id role).slot role' =
      if role' = role then some id else accessors.slot role' := by
  cases role <;> cases role' <;> rfl

/-- The property can be read and not written. -/
def isReadOnly (accessors : Accessors) : Bool := accessors.getter.isSome && accessors.setter.isNone

/-- The property can be written and not read. -/
def isWriteOnly (accessors : Accessors) : Bool := accessors.getter.isNone && accessors.setter.isSome

/-- The property can be read and written. -/
def isReadWrite (accessors : Accessors) : Bool := accessors.getter.isSome && accessors.setter.isSome

/-- The access that the property gives, as one or two letters. -/
def accessText (accessors : Accessors) : String :=
  if accessors.isReadWrite then "rw" else if accessors.isReadOnly then "r" else "w"

end Accessors

/-- What stands at a position of a list with one member more. -/
theorem getElem?_concat_eq_some_iff {α : Type} {xs : List α} {x y : α} {i : Nat} :
    (xs ++ [x])[i]? = some y ↔ xs[i]? = some y ∨ xs.length = i ∧ x = y := by
  rw [List.getElem?_append]
  split
  · rename_i hi
    simp [Nat.ne_of_gt hi]
  · rename_i hi
    have hlast : i - xs.length = 0 ↔ xs.length = i := by omega
    rw [List.getElem?_eq_none (Nat.le_of_not_lt hi), List.getElem?_singleton]
    by_cases h : xs.length = i <;> simp [hlast, h]

/-- Properties by name, in the order of first insertion. -/
structure PropertyMap where
  entries : List (String × Accessors)
  /-- The positions of the names in the list. -/
  index : Dictionary String Nat
  /-- The index has each name of the list at its position, and no other. -/
  index_eq_some_iff : ∀ name i, index.find? name = some i ↔ (entries.map Prod.fst)[i]? = some name
deriving DecidableEq

namespace PropertyMap

/-- No properties. -/
def empty : PropertyMap := ⟨[], .empty, by simp [Dictionary.find?_empty]⟩

/-- The names, in the order of first insertion. -/
def keys (properties : PropertyMap) : List String := properties.entries.map Prod.fst

/-- The number of properties. -/
def size (properties : PropertyMap) : Nat := properties.entries.length

/-- There are no properties. -/
def isEmpty (properties : PropertyMap) : Bool := properties.entries.isEmpty

variable {properties : PropertyMap} {name : String} {i : Nat}

/-! ## Looking up -/

/-- **The index leads to the entries of the list**, each under its name. -/
theorem index_eq_some_iff_entry :
    properties.index.find? name = some i ↔
      ∃ accessors, properties.entries[i]? = some (name, accessors) := by
  rw [properties.index_eq_some_iff, List.getElem?_map, Option.map_eq_some_iff]
  constructor
  · rintro ⟨⟨_, accessors⟩, hentry, rfl⟩
    exact ⟨accessors, hentry⟩
  · rintro ⟨accessors, hentry⟩
    exact ⟨_, hentry, rfl⟩

theorem lt_length_of_index (h : properties.index.find? name = some i) :
    i < properties.entries.length := by
  obtain ⟨_, hentry⟩ := index_eq_some_iff_entry.1 h
  exact (List.getElem?_eq_some_iff.1 hentry).1

/-- There is a property of this name. -/
def contains (properties : PropertyMap) (name : String) : Bool := properties.index.contains name

/-- The entry that the index has under a name, with that name in the list. -/
def get? (properties : PropertyMap) (name : String) : Option (String × Accessors) :=
  (properties.index.find? name).pmap (fun i hi => properties.entries[i]) fun _ => lt_length_of_index

/-- The accessors of a property. -/
def find? (properties : PropertyMap) (name : String) : Option Accessors :=
  (properties.get? name).map Prod.snd

/-- The method in a slot of a property. -/
def slot (properties : PropertyMap) (name : String) (role : AccessorRole) : Option MethodId :=
  (properties.find? name).bind (·.slot role)

/-! ## Attaching -/

/-- A name that the index does not have is not in the list. -/
theorem notMem_keys_of_index (h : properties.index.find? name = none) : name ∉ properties.keys := by
  intro hmem
  obtain ⟨i, hi⟩ := List.mem_iff_getElem?.1 hmem
  cases h.symm.trans ((properties.index_eq_some_iff name i).2 hi)

/-- Adds a property without accessors at the end, under a new name. -/
def push (properties : PropertyMap) (name : String) (hnew : properties.index.find? name = none) :
    PropertyMap where
  entries := properties.entries ++ [(name, {})]
  index := properties.index.insert name properties.entries.length
  index_eq_some_iff name' i := by
    -- The new name stands at the end and, being new, nowhere else.
    rw [Dictionary.find?_insert, List.map_append, List.map_singleton, getElem?_concat_eq_some_iff,
      List.length_map, ← properties.index_eq_some_iff]
    by_cases hname : name' = name
    · simp [hname, hnew]
    · simp [hname, Ne.symm hname]

/-- Puts a method in a slot of the property at a position. -/
def putAt (properties : PropertyMap) (i : Nat) (role : AccessorRole) (id : MethodId) :
    PropertyMap where
  entries := properties.entries.modify i fun entry => (entry.1, entry.2.put id role)
  index := properties.index
  index_eq_some_iff name' j := by
    rw [properties.index_eq_some_iff, List.getElem?_map, List.getElem?_map, List.getElem?_modify]
    cases properties.entries[j]? with
    | none => rfl
    | some entry => by_cases h : i = j <;> simp [h]

/-- The position of a property in the map, which it is added to first if it is not there. -/
def locate (properties : PropertyMap) (name : String) : PropertyMap × Nat :=
  match h : properties.index.find? name with
  | some i => (properties, i)
  | none => (properties.push name h, properties.entries.length)

theorem locate_of_some (h : properties.index.find? name = some i) :
    properties.locate name = (properties, i) := by
  unfold locate
  split <;> simp_all

theorem locate_of_none (h : properties.index.find? name = none) :
    properties.locate name = (properties.push name h, properties.entries.length) := by
  unfold locate
  split <;> simp_all

/-- **A property is where it is located.** -/
theorem index_locate (properties : PropertyMap) (name : String) :
    (properties.locate name).1.index.find? name = some (properties.locate name).2 := by
  cases h : properties.index.find? name with
  | none => rw [locate_of_none h, push, Dictionary.find?_insert, if_pos rfl]
  | some i => rw [locate_of_some h, h]

/-- Puts a method in a slot, and returns the one that was there. -/
def attach (properties : PropertyMap) (name : String) (role : AccessorRole) (id : MethodId) :
    PropertyMap × Option MethodId :=
  let located := properties.locate name
  have hlocated := lt_length_of_index (properties.index_locate name)
  (located.1.putAt located.2 role id, located.1.entries[located.2].2.slot role)

/-! ## Without the index -/

theorem get?_eq_some_iff {entry : String × Accessors} :
    properties.get? name = some entry ↔ entry ∈ properties.entries ∧ entry.1 = name := by
  rw [get?, Option.pmap_eq_some_iff]
  constructor
  · rintro ⟨i, hi, hindex, rfl⟩
    obtain ⟨accessors, hentry⟩ := index_eq_some_iff_entry.1 hindex
    obtain ⟨_, hentry⟩ := List.getElem?_eq_some_iff.1 hentry
    exact ⟨List.getElem_mem hi, by rw [hentry]⟩
  · rintro ⟨hmem, rfl⟩
    obtain ⟨i, hi, rfl⟩ := List.getElem_of_mem hmem
    exact ⟨i, hi, index_eq_some_iff_entry.2 ⟨_, List.getElem?_eq_getElem hi⟩, rfl⟩

/-- **Looking a name up finds its entry.** -/
theorem mem_entries_iff {accessors : Accessors} :
    (name, accessors) ∈ properties.entries ↔ properties.find? name = some accessors := by
  rw [find?, Option.map_eq_some_iff]
  constructor
  · intro hmem
    exact ⟨_, get?_eq_some_iff.2 ⟨hmem, rfl⟩, rfl⟩
  · rintro ⟨entry, hentry, rfl⟩
    obtain ⟨hmem, rfl⟩ := get?_eq_some_iff.1 hentry
    exact hmem

/-- Each name is listed once, since the index has one position for it. -/
theorem keys_nodup (properties : PropertyMap) : properties.keys.Nodup := by
  refine List.pairwise_iff_getElem.2 fun i j hi hj hlt hsame => ?_
  have hfirst : properties.index.find? properties.keys[i] = some i :=
    (properties.index_eq_some_iff _ i).2 (List.getElem?_eq_getElem hi)
  have hsecond : properties.index.find? properties.keys[j] = some j :=
    (properties.index_eq_some_iff _ j).2 (List.getElem?_eq_getElem hj)
  rw [hsame, hsecond] at hfirst
  exact Nat.ne_of_gt hlt (Option.some.inj hfirst)

/-- The properties as a dictionary. -/
def toDictionary (properties : PropertyMap) : Dictionary String Accessors :=
  ⟨properties.entries, properties.keys_nodup⟩

theorem find?_toDictionary (properties : PropertyMap) (name : String) :
    properties.toDictionary.find? name = properties.find? name :=
  Option.ext fun _ => (Dictionary.mem_entries_iff _).symm.trans mem_entries_iff

theorem contains_iff : properties.contains name ↔ name ∈ properties.keys := by
  rw [contains, Dictionary.contains, Option.isSome_iff_exists, List.mem_iff_getElem?]
  exact exists_congr (properties.index_eq_some_iff name)

theorem find?_of_new (h : properties.index.find? name = none) : properties.find? name = none := by
  simp [find?, get?, h]

variable {role : AccessorRole} {id : MethodId}

/-- A property that is there is changed in its place. -/
theorem attach_of_index (h : properties.index.find? name = some i) :
    properties.attach name role id = (properties.putAt i role id, properties.slot name role) := by
  obtain ⟨accessors, hentry⟩ := index_eq_some_iff_entry.1 h
  have hfound : properties.find? name = some accessors :=
    mem_entries_iff.1 (List.mem_of_getElem? hentry)
  obtain ⟨_, hentry⟩ := List.getElem?_eq_some_iff.1 hentry
  simp only [attach, locate_of_some h, slot, hfound, hentry, Option.bind_some]

/-- A property that is not there is added, with nothing in its slots. -/
theorem attach_of_new (h : properties.index.find? name = none) :
    properties.attach name role id =
      ((properties.push name h).putAt properties.entries.length role id, none) := by
  simp only [attach, locate_of_none h, push, List.getElem_concat_length]
  cases role <;> rfl

/-- **Attaching returns what was in the slot.** -/
theorem attach_snd (properties : PropertyMap) (name : String) (role : AccessorRole)
    (id : MethodId) : (properties.attach name role id).2 = properties.slot name role := by
  cases h : properties.index.find? name with
  | none => rw [attach_of_new h, slot, find?_of_new h, Option.bind_none]
  | some i => rw [attach_of_index h]

/-- **Attaching is writing to the dictionary.** -/
theorem toDictionary_attach (properties : PropertyMap) (name : String) (role : AccessorRole)
    (id : MethodId) :
    (properties.attach name role id).1.toDictionary =
      properties.toDictionary.insert name (((properties.find? name).getD {}).put id role) := by
  refine Dictionary.ext ?_
  cases h : properties.index.find? name with
  | none =>
    -- Both ways the property comes last: here it is added empty, and then written to.
    have hnew : name ∉ properties.entries.map Prod.fst := notMem_keys_of_index h
    rw [attach_of_new h, find?_of_new h]
    refine Eq.trans ?_ (putEntry_of_notMem hnew _).symm
    simp [toDictionary, putAt, push, List.modify_eq_take_cons_drop]
  | some i =>
    obtain ⟨accessors, hentry⟩ := index_eq_some_iff_entry.1 h
    have hfound : properties.find? name = some accessors :=
      mem_entries_iff.1 (List.mem_of_getElem? hentry)
    rw [attach_of_index h, hfound]
    exact (putEntry_of_getElem? properties.keys_nodup hentry (·.put id role)).symm

theorem find?_attach (properties : PropertyMap) (name name' : String) (role : AccessorRole)
    (id : MethodId) :
    (properties.attach name role id).1.find? name' =
      if name' = name then some (((properties.find? name).getD {}).put id role)
      else properties.find? name' := by
  rw [← find?_toDictionary, toDictionary_attach, Dictionary.find?_insert, find?_toDictionary]

/-- **Properties keep the order of first insertion.** -/
theorem keys_attach (properties : PropertyMap) (name : String) (role : AccessorRole)
    (id : MethodId) :
    (properties.attach name role id).1.keys =
      if name ∈ properties.keys then properties.keys else properties.keys ++ [name] := by
  have hkeys := congrArg Dictionary.keys (properties.toDictionary_attach name role id)
  rw [Dictionary.keys_insert] at hkeys
  exact hkeys

/-- **Attaching is seen in its slot and nowhere else.** -/
theorem slot_attach (properties : PropertyMap) (name name' : String) (role role' : AccessorRole)
    (id : MethodId) :
    (properties.attach name role id).1.slot name' role' =
      if name' = name ∧ role' = role then some id else properties.slot name' role' := by
  simp only [slot, find?_attach]
  by_cases hn : name' = name
  · subst hn
    simp only [if_true, Option.bind_some, Accessors.slot_put, true_and]
    split
    · rfl
    · cases properties.find? name' with
      | none => cases role' <;> rfl
      | some accessors => rfl
  · simp [hn]

end PropertyMap

end ClassBindings
