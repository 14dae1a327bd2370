import ClassBindings.Proofs.Effect

/-! # What a registration writes

A registration is refused and leaves the package as it was, or it is carried out as a whole.  Each
of the lemmas `register…_cases` says which of the two it is and what is written then: every list and
table that has to know of the new module, header, class, enumeration or alias.  The checks all come
before the first write, so that no registration leaves a trace when it is refused
(`atomic_registerClass` and the others).

What is not a registration leaves these lists and tables alone (`Operation.Effect.sameStores`). -/
namespace ClassBindings

namespace Edit

variable {σ τ α : Type}

/-- An edit that is refused without a trace or else carried out is atomic. -/
theorem atomic_of_cases {x : Edit σ α} (h : ∀ s, Refused x s ∨ ∃ a s', x s = .ok a s') :
    Atomic x := by
  intro s e s' hs
  rcases h s with ⟨e', he⟩ | ⟨a, s'', hok⟩
  · rw [he] at hs
    cases hs
    rfl
  · rw [hok] at hs
    cases hs

/-- What the edit of a part comes to if the part says so. -/
theorem within_apply_ok {part : σ → τ} {put : τ → σ → σ} {edit : Edit τ α} {s : σ} {a : α} {t : τ}
    (h : edit (part s) = .ok a t) : within part put edit s = .ok a (put t s) := by
  simp only [within, h]

end Edit

/-! ## Types -/

namespace TypeTable

variable {table : TypeTable}

/-- Neither the name nor the identity of the type is taken. -/
structure Vacant (table : TypeTable) (entry : TypeEntry) : Prop where
  name : ¬table.names.contains entry.name
  hash : ¬table.types.contains entry.hash

theorem checkVacant_eq_ok_iff {entry : TypeEntry} {u : Unit} :
    table.checkVacant entry = .ok u ↔ table.Vacant entry := by
  rw [checkVacant]
  split
  · rename_i htaken
    constructor
    · intro h
      cases h
    · intro h
      rcases Bool.or_eq_true_iff.1 htaken with hname | hhash
      · exact absurd hname h.name
      · exact absurd hhash h.hash
  · rename_i hvacant
    have hfree : table.Vacant entry := by
      constructor
      · exact fun hname => hvacant (by rw [hname, Bool.true_or])
      · exact fun hhash => hvacant (by rw [hhash, Bool.or_true])
    exact ⟨fun _ => hfree, fun _ => rfl⟩

theorem aliasTarget_eq_ok_iff {name target : String} {hash : TypeHash} :
    table.aliasTarget name target = .ok hash ↔
      ¬table.names.contains name ∧ table.resolve target = some hash := by
  rw [aliasTarget]
  by_cases hname : table.names.contains name
  · simp [hname]
  · cases htarget : table.resolve target <;> simp [hname]

theorem register_cases (entry : TypeEntry) (table : TypeTable) :
    Edit.Refused (register entry) table ∨
      table.Vacant entry ∧ register entry table = .ok entry.hash (table.insert entry) := by
  rw [Edit.Refused, register, Edit.bind_get]
  cases h : table.checkVacant entry with
  | error e => exact Or.inl ⟨e, Edit.bind_check_error rfl _ _⟩
  | ok u => exact Or.inr ⟨checkVacant_eq_ok_iff.1 h, Edit.bind_check_ok rfl _ _⟩

theorem registerAlias_cases (name target : String) (table : TypeTable) :
    Edit.Refused (registerAlias name target) table ∨
      ∃ hash, ¬table.names.contains name ∧ table.resolve target = some hash ∧
        registerAlias name target table =
          .ok hash { table with names := table.names.insert name hash } := by
  rw [Edit.Refused, registerAlias, Edit.bind_get]
  cases h : table.aliasTarget name target with
  | error e => exact Or.inl ⟨e, Edit.bind_check_error rfl _ _⟩
  | ok hash =>
    obtain ⟨hname, htarget⟩ := aliasTarget_eq_ok_iff.1 h
    exact Or.inr ⟨hash, hname, htarget, Edit.bind_check_ok rfl _ _⟩

end TypeTable

namespace Package

variable {α : Type} {p q : Package} {id : ClassId} {module : ModuleId} {m : PackageModule}
  {c d : NativeClass}

/-- What the types refuse the package refuses. -/
theorem refused_editTypes {edit : Edit TypeTable α} (h : Edit.Refused edit p.types) :
    Edit.Refused (editTypes edit) p := by
  obtain ⟨e, he⟩ := h
  exact ⟨e, Edit.within_apply_error rfl he⟩

theorem editTypes_eq_ok {edit : Edit TypeTable α} {a : α} {types : TypeTable}
    (h : edit p.types = .ok a types) : editTypes edit p = .ok a { p with types } :=
  Edit.within_apply_ok h

/-- A type is registered in a package as it is in the type table. -/
theorem editTypes_register_cases (entry : TypeEntry) (p : Package) :
    Edit.Refused (editTypes (TypeTable.register entry)) p ∨
      p.types.Vacant entry ∧ editTypes (TypeTable.register entry) p =
        .ok entry.hash { p with types := p.types.insert entry } :=
  (TypeTable.register_cases entry p.types).imp refused_editTypes
    fun ⟨hvacant, hok⟩ => ⟨hvacant, editTypes_eq_ok hok⟩

/-! ## Modules -/

theorem getModule_of_some (hm : p.modules[module.index]? = some m) : p.getModule module = .ok m := by
  rw [getModule, hm]

theorem getModule_of_none (hm : p.modules[module.index]? = none) :
    p.getModule module = .error (.moduleNotFound module.text) := by
  rw [getModule, hm]

theorem editModule_eq_ok (hm : p.modules[module.index]? = some m)
    (change : PackageModule → PackageModule) :
    editModule module change p =
      .ok () { p with modules := p.modules.set module.index (change m) } := by
  rw [editModule, Edit.bind_get]
  exact Edit.bind_check_ok (getModule_of_some hm) _ p

/-- What is registered in a module that is not there is refused. -/
theorem refused_of_no_module (hm : p.modules[module.index]? = none)
    (f : PackageModule → Edit Package α) :
    Edit.Refused ((liftM (p.getModule module) : Edit Package PackageModule) >>= f) p :=
  ⟨_, Edit.bind_check_error (getModule_of_none hm) f p⟩

/-! ## Registrations -/

theorem refused_editModule (hm : p.modules[module.index]? = none)
    (change : PackageModule → PackageModule) : Edit.Refused (editModule module change) p := by
  rw [Edit.Refused, editModule, Edit.bind_get]
  exact refused_of_no_module hm _

/-- The package with one more module. -/
def withModule (p : Package) (name : String) : Package :=
  { p with modules := p.modules ++ [{ id := ⟨p.modules.length⟩, name }] }

theorem registerModule_eq (name : String) (p : Package) :
    registerModule name p = .ok ⟨p.modules.length⟩ (p.withModule name) := rfl

/-- The package with a header in a module. -/
def withHeader (p : Package) (module : ModuleId) (m : PackageModule) (path : String) : Package :=
  { p with
    modules := p.modules.set module.index { m with headers := m.headers ++ [⟨p.headers.length⟩] }
    headers := p.headers ++ [{ id := ⟨p.headers.length⟩, module, path }] }

theorem registerHeader_cases (module : ModuleId) (path : String) (p : Package) :
    Edit.Refused (registerHeader module path) p ∨
      ∃ m, p.modules[module.index]? = some m ∧
        registerHeader module path p = .ok ⟨p.headers.length⟩ (p.withHeader module m path) := by
  rw [Edit.Refused, registerHeader, Edit.bind_get]
  cases hm : p.modules[module.index]? with
  | none => exact Or.inl ((refused_editModule hm _).bind _)
  | some m => exact Or.inr ⟨m, rfl, Edit.bind_apply_ok (editModule_eq_ok hm _) _⟩

/-- The package with a class in a module. -/
def withClass (p : Package) (module : ModuleId) (m : PackageModule) (name nativeName : String) :
    Package :=
  let id : ClassId := ⟨p.classes.length⟩
  { p with
    modules := p.modules.set module.index { m with classes := m.classes ++ [id] }
    classes := p.classes ++ [{ id, name, nativeName, module }]
    classIds := p.classIds.insert name id
    types := p.types.insert (.ofName name (.boundClass id)) }

theorem registerClass_cases (module : ModuleId) (name nativeName : String) (p : Package) :
    Edit.Refused (registerClass module name nativeName) p ∨
      ∃ m, p.modules[module.index]? = some m ∧
        p.types.Vacant (.ofName name (.boundClass ⟨p.classes.length⟩)) ∧
        registerClass module name nativeName p =
          .ok ⟨p.classes.length⟩ (p.withClass module m name nativeName) := by
  rw [Edit.Refused, registerClass, Edit.bind_get]
  cases hm : p.modules[module.index]? with
  | none => exact Or.inl (refused_of_no_module hm _)
  | some m =>
    rw [Edit.bind_check_ok (getModule_of_some hm)]
    rcases editTypes_register_cases (.ofName name (.boundClass ⟨p.classes.length⟩)) p with
      hrefused | ⟨hvacant, hok⟩
    · exact Or.inl (hrefused.bind _)
    · refine Or.inr ⟨m, rfl, hvacant, ?_⟩
      rw [Edit.bind_apply_ok hok, Edit.bind_apply_ok (Edit.modify_apply _ _)]
      exact Edit.bind_apply_ok (editModule_eq_ok (by exact hm) _) _

/-- The package with an enumeration in a module. -/
def withEnumeration (p : Package) (module : ModuleId) (m : PackageModule) (name : String) :
    Package :=
  { p with
    modules := p.modules.set module.index { m with enumerations := m.enumerations ++ [name] }
    types := p.types.insert (.ofName name (.enumeration module)) }

theorem registerEnumeration_cases (module : ModuleId) (name : String) (p : Package) :
    Edit.Refused (registerEnumeration module name) p ∨
      ∃ m, p.modules[module.index]? = some m ∧
        p.types.Vacant (.ofName name (.enumeration module)) ∧
        registerEnumeration module name p =
          .ok (.ofName name) (p.withEnumeration module m name) := by
  rw [Edit.Refused, registerEnumeration, Edit.bind_get]
  cases hm : p.modules[module.index]? with
  | none => exact Or.inl (refused_of_no_module hm _)
  | some m =>
    rw [Edit.bind_check_ok (getModule_of_some hm)]
    rcases editTypes_register_cases (.ofName name (.enumeration module)) p with
      hrefused | ⟨hvacant, hok⟩
    · exact Or.inl (hrefused.bind _)
    · refine Or.inr ⟨m, rfl, hvacant, ?_⟩
      rw [Edit.bind_apply_ok hok]
      exact Edit.bind_apply_ok (editModule_eq_ok (by exact hm) _) _

/-- The package with one more name for a type. -/
def withAlias (p : Package) (name : String) (hash : TypeHash) : Package :=
  { p with types := { p.types with names := p.types.names.insert name hash } }

theorem registerAlias_cases (name target : String) (p : Package) :
    Edit.Refused (registerAlias name target) p ∨
      ∃ hash, ¬p.types.names.contains name ∧ p.types.resolve target = some hash ∧
        registerAlias name target p = .ok hash (p.withAlias name hash) := by
  rcases TypeTable.registerAlias_cases name target p.types with
    hrefused | ⟨hash, hname, htarget, hok⟩
  · exact Or.inl (refused_editTypes hrefused)
  · exact Or.inr ⟨hash, hname, htarget, editTypes_eq_ok hok⟩

/-! **A registration that is refused leaves no trace.** -/

theorem atomic_registerHeader (module : ModuleId) (path : String) :
    Edit.Atomic (registerHeader module path) :=
  Edit.atomic_of_cases fun p => (registerHeader_cases module path p).imp_right
    fun ⟨_, _, hok⟩ => ⟨_, _, hok⟩

theorem atomic_registerClass (module : ModuleId) (name nativeName : String) :
    Edit.Atomic (registerClass module name nativeName) :=
  Edit.atomic_of_cases fun p => (registerClass_cases module name nativeName p).imp_right
    fun ⟨_, _, _, hok⟩ => ⟨_, _, hok⟩

theorem atomic_registerEnumeration (module : ModuleId) (name : String) :
    Edit.Atomic (registerEnumeration module name) :=
  Edit.atomic_of_cases fun p => (registerEnumeration_cases module name p).imp_right
    fun ⟨_, _, _, hok⟩ => ⟨_, _, hok⟩

theorem atomic_registerAlias (name target : String) : Edit.Atomic (registerAlias name target) :=
  Edit.atomic_of_cases fun p => (registerAlias_cases name target p).imp_right
    fun ⟨_, _, _, hok⟩ => ⟨_, _, hok⟩

end Package

/-! ## Everything else -/

/-- What registration writes of a class. -/
structure ClassRecord where
  id : ClassId
  name : String
  module : ModuleId

/-- What was written of the class when it was registered. -/
def NativeClass.record (c : NativeClass) : ClassRecord := ⟨c.id, c.name, c.module⟩

namespace Package

variable {p q : Package} {id : ClassId} {c d : NativeClass}

/-- What registration wrote of the classes. -/
def records (p : Package) : List ClassRecord := p.classes.map NativeClass.record

/-- The packages agree on all that registration writes. -/
structure SameStores (p q : Package) : Prop where
  modules : q.modules = p.modules
  headers : q.headers = p.headers
  classIds : q.classIds = p.classIds
  types : q.types = p.types
  records : q.records = p.records

theorem SameStores.refl (p : Package) : p.SameStores p := ⟨rfl, rfl, rfl, rfl, rfl⟩

theorem SameStores.trans {r : Package} (h : p.SameStores q) (h' : q.SameStores r) :
    p.SameStores r where
  modules := h'.modules.trans h.modules
  headers := h'.headers.trans h.headers
  classIds := h'.classIds.trans h.classIds
  types := h'.types.trans h.types
  records := h'.records.trans h.records

theorem sameStores_putClass (hc : p.class? id = some c) (h : d.record = c.record) :
    p.SameStores (p.putClass id d) := by
  have hself : (p.putClass id c).records = p.records := by rw [putClass_self hc]
  refine ⟨rfl, rfl, rfl, rfl, ?_⟩
  rw [← hself]
  simp only [records, putClass, List.map_set, h]

theorem Passes.sameStores (h : Passes p q) : p.SameStores q := by
  induction h with
  | refl => exact .refl p
  | tail _ hpass ih =>
    cases hpass with
    | advance hc hd =>
      refine ih.trans (sameStores_putClass hc ?_)
      cases hd <;> rfl

end Package

/-- **What is no registration leaves alone what registration writes.** -/
theorem Operation.Effect.sameStores {p q : Package} {op : Operation} (h : op.Effect p q)
    (hop : ¬op.isRegistration) : p.SameStores q := by
  cases h with
  | refl => exact .refl p
  | grow hreg _ => exact absurd hreg hop
  | declare hc _ hd =>
    refine Package.sameStores_putClass hc ?_
    rw [hd.same]
    rfl
  | rebase hc _ _ => exact Package.sameStores_putClass hc rfl
  | attach hc _ _ => exact Package.sameStores_putClass hc rfl
  | resolve _ hpasses => exact hpasses.sameStores

end ClassBindings
