import ClassBindings.Proofs.Filing

/-! # The stores of a package agree

A class is written down in four places: in the class list, under its name, among the types and in
the list of its module.  `StoresAgree` says that the four tell the same story, and headers,
enumerations and aliases with them; `stores_agree` that they do in every package whose history puts
no whole entry in place.

Enumerations and aliases leave less behind than classes, so what was registered is read off the
history (`Operation.collect`).  The invariant is `Filed`: one lemma says how each registration keeps
it, and what is no registration touches none of the stores. -/
namespace ClassBindings

/-! ## Packages -/

/-- The type that a class is. -/
def ClassRecord.type (r : ClassRecord) : TypeEntry := .ofName r.name (.boundClass r.id)

/-- The type that an enumeration of a module is. -/
def TypeEntry.ofEnumeration (e : ModuleId × String) : TypeEntry := .ofName e.2 (.enumeration e.1)

namespace Package

variable {p q : Package} {enumerations : List (ModuleId × String)} {aliases : List String}
  {module : ModuleId} {m : PackageModule} {name : String}

/-- What every registration keeps of the stores. -/
structure Filed (p : Package) (enumerations : List (ModuleId × String)) (aliases : List String) :
    Prop where
  classes_numbered : Numbered (·.id.index) p.records
  headers_numbered : Numbered (·.id.index) p.headers
  classes_listed : Listing p.modules (·.classes) (p.records.map fun r => (r.module, r.id))
  headers_listed : Listing p.modules (·.headers) (p.headers.map fun h => (h.module, h.id))
  enumerations_listed : Listing p.modules (·.enumerations) enumerations
  known : p.types.Knows (p.records.map ClassRecord.type ++ enumerations.map .ofEnumeration) aliases
  indexed : Indexed p.classIds p.records

namespace Filed

theorem new (name : String) (options : Options) : Filed { name, options } [] [] where
  classes_numbered := rfl
  headers_numbered := rfl
  classes_listed := ⟨by simp [records], by simp⟩
  headers_listed := ⟨by simp, by simp⟩
  enumerations_listed := ⟨by simp, by simp⟩
  known := ⟨by simp [records], by simp [records], by simp [records], by simp⟩
  indexed name id := by simp [Dictionary.find?_empty, records]

theorem sameStores (h : p.Filed enumerations aliases) (hsame : p.SameStores q) :
    q.Filed enumerations aliases where
  classes_numbered := hsame.records ▸ h.classes_numbered
  headers_numbered := hsame.headers ▸ h.headers_numbered
  classes_listed := hsame.records ▸ hsame.modules ▸ h.classes_listed
  headers_listed := hsame.headers ▸ hsame.modules ▸ h.headers_listed
  enumerations_listed := hsame.modules ▸ h.enumerations_listed
  known := hsame.records ▸ hsame.types ▸ h.known
  indexed := hsame.records ▸ hsame.classIds ▸ h.indexed

theorem withModule (h : p.Filed enumerations aliases) (name : String) :
    (p.withModule name).Filed enumerations aliases where
  classes_numbered := h.classes_numbered
  headers_numbered := h.headers_numbered
  classes_listed := h.classes_listed.append rfl
  headers_listed := h.headers_listed.append rfl
  enumerations_listed := h.enumerations_listed.append rfl
  known := h.known
  indexed := h.indexed

section
variable (hm : p.modules[module.index]? = some m)
include hm

theorem withHeader (h : p.Filed enumerations aliases) (path : String) :
    (p.withHeader module m path).Filed enumerations aliases where
  classes_numbered := h.classes_numbered
  headers_numbered := h.headers_numbered.append rfl
  classes_listed := h.classes_listed.keep hm rfl
  headers_listed := by
    rw [Package.withHeader, List.map_append]
    exact h.headers_listed.set hm [⟨p.headers.length⟩] rfl
  enumerations_listed := h.enumerations_listed.keep hm rfl
  known := h.known
  indexed := h.indexed

theorem withEnumeration (h : p.Filed enumerations aliases)
    (hvacant : p.types.Vacant (.ofName name (.enumeration module))) :
    (p.withEnumeration module m name).Filed (enumerations ++ [(module, name)]) aliases where
  classes_numbered := h.classes_numbered
  headers_numbered := h.headers_numbered
  classes_listed := h.classes_listed.keep hm rfl
  headers_listed := h.headers_listed.keep hm rfl
  enumerations_listed := h.enumerations_listed.set hm [name] rfl
  known := by
    refine (h.known.insert hvacant).perm ?_
    rw [List.map_append, ← List.append_assoc]
    exact (List.perm_append_singleton _ _).symm
  indexed := h.indexed

theorem withClass (h : p.Filed enumerations aliases) {nativeName : String}
    (hvacant : p.types.Vacant (.ofName name (.boundClass ⟨p.classes.length⟩))) :
    (p.withClass module m name nativeName).Filed enumerations aliases := by
  have hrecords : (p.withClass module m name nativeName).records =
      p.records ++ [⟨⟨p.classes.length⟩, name, module⟩] := by
    rw [records, Package.withClass, List.map_append]
    rfl
  -- The name is new among the types, so no other class has it.
  have hnew : ∀ r ∈ p.records, r.name ≠ name := by
    intro r hr heq
    have htaken : p.types.names.contains r.name :=
      (h.known.contains_type (List.mem_append_left _ (List.mem_map_of_mem hr))).1
    exact hvacant.name (heq ▸ htaken)
  constructor
  case classes_numbered =>
    rw [hrecords]
    exact h.classes_numbered.append (List.length_map _).symm
  case headers_numbered => exact h.headers_numbered
  case classes_listed =>
    rw [hrecords, List.map_append]
    exact h.classes_listed.set hm [⟨p.classes.length⟩] rfl
  case headers_listed => exact h.headers_listed.keep hm rfl
  case enumerations_listed => exact h.enumerations_listed.keep hm rfl
  case known =>
    refine (h.known.insert hvacant).perm ?_
    rw [hrecords, List.map_append, List.append_assoc]
    exact List.perm_middle.symm
  case indexed =>
    rw [hrecords]
    exact h.indexed.append ⟨⟨p.classes.length⟩, name, module⟩ hnew

end

theorem withAlias (h : p.Filed enumerations aliases) (hname : ¬p.types.names.contains name)
    (hash : TypeHash) : (p.withAlias name hash).Filed enumerations (aliases ++ [name]) where
  classes_numbered := h.classes_numbered
  headers_numbered := h.headers_numbered
  classes_listed := h.classes_listed
  headers_listed := h.headers_listed
  enumerations_listed := h.enumerations_listed
  known := h.known.insert_alias hname hash
  indexed := h.indexed

end Filed

end Package

/-! ## Histories -/

namespace Operation

variable {κ : Type}

/-- The enumeration that the operation registers. -/
def enumeration? (p : Package) : Operation → Option (ModuleId × String)
  | registerEnumeration module name =>
    match Package.registerEnumeration module name p with
    | .ok _ _ => some (module, name)
    | .error _ _ => none
  | _ => none

/-- The alias that the operation registers. -/
def alias? (p : Package) : Operation → Option String
  | registerAlias name target =>
    match Package.registerAlias name target p with
    | .ok _ _ => some name
    | .error _ _ => none
  | _ => none

/-- Only registrations register anything. -/
theorem registers_none {op : Operation} (h : ¬op.isRegistration) (p : Package) :
    op.enumeration? p = none ∧ op.alias? p = none := by
  cases op with
  | registerEnumeration module name => exact absurd rfl h
  | registerAlias name target => exact absurd rfl h
  | _ => exact ⟨rfl, rfl⟩

/-- What the operations of a history register, in order. -/
def collect (added? : Package → Operation → Option κ) (p : Package) : List Operation → List κ
  | [] => []
  | op :: rest => (added? p op).toList ++ collect added? (op.apply p) rest

end Operation

namespace Package

variable {p : Package} {enumerations : List (ModuleId × String)} {aliases : List String}
  {op : Operation} {id : ClassId} {c : NativeClass}

/-- An operation that registers neither an enumeration nor an alias. -/
theorem Filed.of_none (henumeration : op.enumeration? p = none) (halias : op.alias? p = none)
    (h : (op.apply p).Filed enumerations aliases) :
    (op.apply p).Filed (enumerations ++ (op.enumeration? p).toList)
      (aliases ++ (op.alias? p).toList) := by
  rwa [henumeration, halias, Option.toList_none, Option.toList_none, List.append_nil,
    List.append_nil]

/-- **What each operation keeps of the stores.** -/
theorem Filed.apply (h : p.Filed enumerations aliases) (hop : ¬op.isReplacement) :
    (op.apply p).Filed (enumerations ++ (op.enumeration? p).toList)
      (aliases ++ (op.alias? p).toList) := by
  by_cases hreg : op.isRegistration
  · cases op with
    | registerModule name =>
      refine .of_none rfl rfl ?_
      rw [Operation.apply, registerModule_eq]
      exact h.withModule name
    | registerHeader module path =>
      refine .of_none rfl rfl ?_
      rcases registerHeader_cases module path p with ⟨e, he⟩ | ⟨m, hm, hok⟩
      · rwa [Operation.apply, he]
      · rw [Operation.apply, hok]
        exact h.withHeader hm path
    | registerClass module name nativeName =>
      refine .of_none rfl rfl ?_
      rcases registerClass_cases module name nativeName p with ⟨e, he⟩ | ⟨m, hm, hvacant, hok⟩
      · rwa [Operation.apply, he]
      · rw [Operation.apply, hok]
        exact h.withClass hm hvacant
    | registerEnumeration module name =>
      rcases registerEnumeration_cases module name p with ⟨e, he⟩ | ⟨m, hm, hvacant, hok⟩
      · refine .of_none (by rw [Operation.enumeration?, he]) rfl ?_
        rwa [Operation.apply, he]
      · simp only [Operation.enumeration?, Operation.alias?, Operation.apply, hok,
          Option.toList_none, List.append_nil]
        exact h.withEnumeration hm hvacant
    | registerAlias name target =>
      rcases registerAlias_cases name target p with ⟨e, he⟩ | ⟨hash, hname, _, hok⟩
      · refine .of_none rfl (by rw [Operation.alias?, he]) ?_
        rwa [Operation.apply, he]
      · simp only [Operation.enumeration?, Operation.alias?, Operation.apply, hok,
          Option.toList_none, List.append_nil]
        exact h.withAlias hname hash
    | _ => cases hreg
  · have hsame := h.sameStores ((Operation.apply_effect hop p).sameStores hreg)
    obtain ⟨henumeration, halias⟩ := Operation.registers_none hreg p
    exact .of_none henumeration halias hsame

/-- **What a whole history keeps of the stores.** -/
theorem Filed.run {operations : List Operation} (hops : ∀ op ∈ operations, ¬op.isReplacement)
    (h : p.Filed enumerations aliases) :
    (Operation.run p operations).Filed
      (enumerations ++ Operation.collect Operation.enumeration? p operations)
      (aliases ++ Operation.collect Operation.alias? p operations) := by
  induction operations generalizing p enumerations aliases with
  | nil =>
    rw [Operation.collect, Operation.collect, List.append_nil, List.append_nil]
    exact h
  | cons op rest ih =>
    rw [Operation.collect, Operation.collect, ← List.append_assoc, ← List.append_assoc]
    exact ih (fun o ho => hops o (List.mem_cons_of_mem _ ho))
      (h.apply (hops op List.mem_cons_self))

/-! ## What is kept, read off the package -/

theorem record_mem (hc : p.class? id = some c) : c.record ∈ p.records :=
  List.mem_map_of_mem (mem_classes_of_class? hc)

theorem type_mem (hc : p.class? id = some c) (enumerations : List (ModuleId × String)) :
    c.record.type ∈ p.records.map ClassRecord.type ++ enumerations.map TypeEntry.ofEnumeration :=
  List.mem_append_left _ (List.mem_map_of_mem (record_mem hc))

namespace Filed

theorem class_id (h : p.Filed enumerations aliases) (hc : p.class? id = some c) : c.id = id := by
  have hrecord : p.records[id.index]? = some c.record := by
    rw [records, List.getElem?_map, ← class?, hc, Option.map_some]
  have hindex : c.id.index = id.index := h.classes_numbered.index_eq hrecord
  cases id
  exact congrArg ClassId.mk hindex

theorem header_id (h : p.Filed enumerations aliases) {i : Nat} {header : NativeHeader}
    (hi : p.headers[i]? = some header) : header.id = ⟨i⟩ :=
  congrArg HeaderId.mk (h.headers_numbered.index_eq hi)

theorem class?_of_record (h : p.Filed enumerations aliases) {r : ClassRecord}
    (hr : r ∈ p.records) : ∃ c, p.class? r.id = some c ∧ c.record = r := by
  obtain ⟨i, hi⟩ := List.mem_iff_getElem?.1 hr
  have hindex : r.id.index = i := h.classes_numbered.index_eq hi
  rw [records, List.getElem?_map] at hi
  obtain ⟨c, hc, hrecord⟩ := Option.map_eq_some_iff.1 hi
  exact ⟨c, by rwa [class?, hindex], hrecord⟩

theorem names_nodup (h : p.Filed enumerations aliases) :
    (p.classes.map (·.name) ++ enumerations.map Prod.snd ++ aliases).Nodup := by
  have hnodup := h.known.nodup
  rw [List.map_append, List.map_map, List.map_map, records, List.map_map] at hnodup
  exact hnodup

theorem classes_increasing (h : p.Filed enumerations aliases) :
    ((p.records.map fun r => (r.module, r.id)).map Prod.snd).Pairwise (·.index < ·.index) := by
  rw [List.map_map]
  exact List.pairwise_map.2 h.classes_numbered.pairwise

theorem headers_increasing (h : p.Filed enumerations aliases) :
    ((p.headers.map fun h => (h.module, h.id)).map Prod.snd).Pairwise (·.index < ·.index) := by
  rw [List.map_map]
  exact List.pairwise_map.2 h.headers_numbered.pairwise

end Filed

/-- The class list, the names, the types and the lists of the modules tell the same story, in which
these are the enumerations and the aliases. -/
structure StoresAgree (p : Package) (enumerations : List (ModuleId × String))
    (aliases : List String) : Prop where
  /-- A class carries its position. -/
  class_id : ∀ id c, p.class? id = some c → c.id = id
  /-- No name is given away twice, be it to a class, an enumeration or an alias. -/
  names_nodup : (p.classes.map (·.name) ++ enumerations.map Prod.snd ++ aliases).Nodup
  /-- A name leads to the class that has it. -/
  class_named : ∀ name id, p.classId? name = some id ↔ ∃ c, p.class? id = some c ∧ c.name = name
  /-- A class is a type of its name. -/
  class_typed : ∀ id c, p.class? id = some c →
    p.types.names.find? c.name = some (TypeHash.ofName c.name) ∧
      p.types.get? (TypeHash.ofName c.name) = some (.ofName c.name (.boundClass id))
  /-- A class is listed once, by its module. -/
  class_listed : ∀ id c, p.class? id = some c →
    (p.modules.flatMap (·.classes)).count id = 1 ∧
      ∃ m, p.modules[c.module.index]? = some m ∧ id ∈ m.classes
  /-- A header carries its position. -/
  header_id : ∀ i (header : NativeHeader), p.headers[i]? = some header → header.id = ⟨i⟩
  /-- A header is listed once, by its module. -/
  header_listed : ∀ i (header : NativeHeader), p.headers[i]? = some header →
    (p.modules.flatMap (·.headers)).count ⟨i⟩ = 1 ∧
      ∃ m, p.modules[header.module.index]? = some m ∧ ⟨i⟩ ∈ m.headers
  /-- The modules list classes and headers in the order of registration. -/
  increasing : ∀ m ∈ p.modules,
    m.classes.Pairwise (·.index < ·.index) ∧ m.headers.Pairwise (·.index < ·.index)
  /-- An enumeration is listed once, by its module. -/
  enumeration_listed : ∀ module name, (module, name) ∈ enumerations →
    (p.modules.flatMap (·.enumerations)).count name = 1 ∧
      ∃ m, p.modules[module.index]? = some m ∧ name ∈ m.enumerations
  /-- An enumeration is a type of its name. -/
  enumeration_typed : ∀ module name, (module, name) ∈ enumerations →
    p.types.names.find? name = some (TypeHash.ofName name) ∧
      p.types.get? (TypeHash.ofName name) = some (.ofName name (.enumeration module))

theorem Filed.storesAgree (h : p.Filed enumerations aliases) :
    p.StoresAgree enumerations aliases where
  class_id _ _ hc := h.class_id hc
  names_nodup := h.names_nodup
  class_named name id := by
    refine (h.indexed name id).trans ⟨?_, ?_⟩
    · rintro ⟨r, hr, rfl, rfl⟩
      obtain ⟨c, hc, rfl⟩ := h.class?_of_record hr
      exact ⟨c, hc, rfl⟩
    · rintro ⟨c, hc, hname⟩
      exact ⟨c.record, record_mem hc, hname, h.class_id hc⟩
  class_typed id c hc := by
    have hnamed := h.known.named _ (type_mem hc enumerations)
    have htyped := h.known.typed _ (type_mem hc enumerations)
    rw [← h.class_id hc]
    exact ⟨hnamed, htyped⟩
  class_listed id c hc := by
    rw [← h.class_id hc]
    exact h.classes_listed.listed_once (nodup_of_increasing h.classes_increasing)
      (List.mem_map_of_mem (record_mem hc))
  header_id _ _ hi := h.header_id hi
  header_listed i header hi := by
    rw [← h.header_id hi]
    exact h.headers_listed.listed_once (nodup_of_increasing h.headers_increasing)
      (List.mem_map_of_mem (List.mem_of_getElem? hi))
  increasing m hm :=
    ⟨h.classes_listed.pairwise h.classes_increasing m hm,
      h.headers_listed.pairwise h.headers_increasing m hm⟩
  enumeration_listed module name he := by
    have hnodup := (List.nodup_append.1 (List.nodup_append.1 h.names_nodup).1).2.1
    exact h.enumerations_listed.listed_once hnodup he
  enumeration_typed module name he := by
    have hmem : TypeEntry.ofEnumeration (module, name) ∈
        p.records.map ClassRecord.type ++ enumerations.map TypeEntry.ofEnumeration :=
      List.mem_append_right _ (List.mem_map_of_mem he)
    exact ⟨h.known.named _ hmem, h.known.typed _ hmem⟩

/-- **The stores of a package agree, and a refused registration leaves them alone.**  After any
history without whole entries put in place, the classes, the names, the types and the lists of the
modules fit together, with the enumerations and the aliases that were registered on the way; and
what refuses a header, a class, an enumeration or an alias leaves the package as it was. -/
theorem stores_agree {name : String} {options : Options} {operations : List Operation}
    (hops : ∀ op ∈ operations, ¬op.isReplacement) :
    (Operation.run { name, options } operations).StoresAgree
        (Operation.collect Operation.enumeration? { name, options } operations)
        (Operation.collect Operation.alias? { name, options } operations) ∧
      (∀ module path, Edit.Atomic (registerHeader module path)) ∧
      (∀ module name nativeName, Edit.Atomic (registerClass module name nativeName)) ∧
      (∀ module name, Edit.Atomic (registerEnumeration module name)) ∧
      ∀ name target, Edit.Atomic (registerAlias name target) :=
  ⟨((Filed.new name options).run hops).storesAgree, atomic_registerHeader, atomic_registerClass,
    atomic_registerEnumeration, atomic_registerAlias⟩

/-- Nodes and sounds, each in a module of their own.  A class of channels is refused, since there is
an enumeration of that name. -/
def soundHistory : List Operation :=
  [.registerModule "scene", .registerModule "audio", .registerHeader ⟨0⟩ "scene/Node.h",
    .registerClass ⟨0⟩ "Node" "scene::Node", .registerEnumeration ⟨1⟩ "Channel",
    .registerAlias "NodeRef" "Node", .registerClass ⟨1⟩ "Channel" "audio::Channel",
    .registerClass ⟨1⟩ "Sound" "audio::Sound"]

/-- The stores agree on nodes, sounds and the enumeration; the refused class is in none of them. -/
theorem stores_agree_sound :
    (Operation.run { name := "audio" } soundHistory).StoresAgree [(⟨1⟩, "Channel")] ["NodeRef"] ∧
      (Operation.run { name := "audio" } soundHistory).classes.map (·.name) = ["Node", "Sound"] := by
  have henumerations : Operation.collect Operation.enumeration? { name := "audio" } soundHistory =
      [(⟨1⟩, "Channel")] := by decide +kernel
  have haliases : Operation.collect Operation.alias? { name := "audio" } soundHistory =
      ["NodeRef"] := by decide +kernel
  refine ⟨?_, by decide +kernel⟩
  rw [← henumerations, ← haliases]
  exact (stores_agree (by decide)).1

end Package

end ClassBindings
