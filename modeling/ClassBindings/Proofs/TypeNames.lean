import ClassBindings.Proofs.Builtins
import ClassBindings.Proofs.Registration
import ClassBindings.Proofs.Coherence

/-! # Names of types keep their meaning

A table of types is only ever added to, and what is added is new: a type of which neither the name
nor the identity is taken, or a name that is not taken for a type that is there (`Addition`).  So
the later table `Extends` the earlier one.  Every operation on a package makes one addition to its
types or none (`Operation.types_apply`), be it carried out or refused, and be it the replacement of
a whole entry; hence a name that leads to a type leads to it ever after.

A package starts with the builtin types, so their names and spellings lead to them in every package
(`HasHistory.resolution_stable`). -/
namespace ClassBindings

namespace TypeTable

variable {table later : TypeTable} {name token : String} {hash : TypeHash} {entry : TypeEntry}

/-! ## Tables that grow -/

/-- Every name leads to a type. -/
def Closed (table : TypeTable) : Prop :=
  ∀ name hash, table.names.find? name = some hash → ∃ entry, table.get? hash = some entry

/-- The table has every name and every type of the earlier one, as they were. -/
structure Extends (table earlier : TypeTable) : Prop where
  names : ∀ {name hash}, earlier.names.find? name = some hash → table.names.find? name = some hash
  types : ∀ {hash entry}, earlier.get? hash = some entry → table.get? hash = some entry

theorem Extends.refl (table : TypeTable) : table.Extends table := ⟨id, id⟩

theorem Extends.trans {earlier : TypeTable} (h : later.Extends table) (h' : table.Extends earlier) :
    later.Extends earlier :=
  ⟨fun hname => h.names (h'.names hname), fun htype => h.types (h'.types htype)⟩

theorem Extends.nameOf? (h : later.Extends table) (hname : table.nameOf? hash = some name) :
    later.nameOf? hash = some name := by
  obtain ⟨entry, hentry, rfl⟩ := Option.map_eq_some_iff.1 hname
  rw [TypeTable.nameOf?, h.types hentry, Option.map_some]

/-- What is added to a table: nothing, a type that is new, or a new name for a type. -/
inductive Addition (table : TypeTable) : TypeTable → Prop
  | nothing : Addition table table
  | type {entry : TypeEntry} (hvacant : table.Vacant entry) : Addition table (table.insert entry)
  | name {name target : String} {hash : TypeHash} (hname : ¬table.names.contains name)
      (htarget : table.resolve target = some hash) :
      Addition table { table with names := table.names.insert name hash }

/-- **An addition overwrites nothing.** -/
theorem Addition.extends (h : table.Addition later) : later.Extends table := by
  cases h with
  | nothing => exact .refl table
  | type hvacant =>
    constructor
    · intro name hash hname
      exact Dictionary.find?_insert_of_new hvacant.name hname _
    · intro hash entry htype
      exact Dictionary.find?_insert_of_new hvacant.hash htype _
  | name hnew _ =>
    constructor
    · intro name hash hname
      exact Dictionary.find?_insert_of_new hnew hname _
    · exact id

/-- **An addition leaves no name without a type.** -/
theorem Addition.closed (h : table.Addition later) (hclosed : table.Closed) : later.Closed := by
  intro name hash hname
  have hextends := h.extends
  cases h with
  | nothing => exact hclosed name hash hname
  | @type new hvacant =>
    rw [TypeTable.insert, Dictionary.find?_insert] at hname
    split at hname
    · cases hname
      exact ⟨new, by rw [get?, TypeTable.insert, Dictionary.find?_insert, if_pos rfl]⟩
    · obtain ⟨entry, hentry⟩ := hclosed name hash hname
      exact ⟨entry, hextends.types hentry⟩
  | name _ htarget =>
    rw [Dictionary.find?_insert] at hname
    split at hname
    · cases hname
      exact hclosed _ _ htarget
    · exact hclosed name hash hname

/-! ## Builtin types -/

/-- **Adding the builtins leaves no name without a type.** -/
theorem Closed.registerBuiltins (h : table.Closed) : table.registerBuiltins.Closed := by
  intro name hash hname
  rw [← Option.isSome_iff_exists]
  rcases find?_registerBuiltins_cases table name with
    hsame | ⟨kind, _, hfind, _⟩ | ⟨hvacant, rfl, hfind⟩
  · rw [hsame] at hname
    exact isSome_get?_registerBuiltins (Option.isSome_iff_exists.2 (h name hash hname))
  · cases hfind.symm.trans hname
    exact isSome_registerBuiltins_primitive kind table
  · cases hfind.symm.trans hname
    rw [get?_registerBuiltins_text, Dictionary.contains, hvacant]
    rfl

theorem closed_empty : empty.Closed := nofun

theorem closed_builtins : builtins.Closed := closed_empty.registerBuiltins

end TypeTable

/-! ## Operations -/

namespace Operation

open Package

/-- A replacement of a whole entry does not touch the types. -/
theorem types_replaceClass (id : ClassId) (entry : NativeClass) (p : Package) :
    (Edit.left (Package.replaceClass id entry p)).types = p.types := by
  rw [Package.replaceClass]
  exact left_editClass (R := fun p q => q.types = p.types) (set entry) rfl fun _ _ _ => rfl

/-- **What an operation does to the types of a package**: one addition at most. -/
theorem types_apply (op : Operation) (p : Package) : p.types.Addition (op.apply p).types := by
  by_cases hreplacement : op.isReplacement
  · cases op with
    | replaceClass id entry =>
      rw [apply, types_replaceClass]
      exact .nothing
    | _ => cases hreplacement
  by_cases hreg : op.isRegistration
  · cases op with
    | registerModule name => exact .nothing
    | registerHeader module path =>
      rcases registerHeader_cases module path p with ⟨e, he⟩ | ⟨m, _, hok⟩
      · rw [apply, he]
        exact .nothing
      · rw [apply, hok]
        exact .nothing
    | registerClass module name nativeName =>
      rcases registerClass_cases module name nativeName p with ⟨e, he⟩ | ⟨m, _, hvacant, hok⟩
      · rw [apply, he]
        exact .nothing
      · rw [apply, hok]
        exact .type hvacant
    | registerEnumeration module name =>
      rcases registerEnumeration_cases module name p with ⟨e, he⟩ | ⟨m, _, hvacant, hok⟩
      · rw [apply, he]
        exact .nothing
      · rw [apply, hok]
        exact .type hvacant
    | registerAlias name target =>
      rcases Package.registerAlias_cases name target p with ⟨e, he⟩ | ⟨hash, hname, htarget, hok⟩
      · rw [apply, he]
        exact .nothing
      · rw [apply, hok]
        exact .name hname htarget
    | _ => cases hreg
  · rw [((apply_effect hreplacement p).sameStores hreg).types]
    exact .nothing

/-- Whatever is done to a package extends its types. -/
theorem run_extends (operations : List Operation) (p : Package) :
    (run p operations).types.Extends p.types := by
  induction operations generalizing p with
  | nil => exact .refl p.types
  | cons op rest ih => exact (ih (op.apply p)).trans (op.types_apply p).extends

/-- Whatever is done to a package leaves no name without a type. -/
theorem run_closed (operations : List Operation) {p : Package} (h : p.types.Closed) :
    (run p operations).types.Closed := by
  induction operations generalizing p with
  | nil => exact h
  | cons op rest ih => exact ih ((op.types_apply p).closed h)

end Operation

/-! ## Packages -/

namespace Package

variable {p : Package}

/-- The package has a history of any operations, replacements of whole entries among them. -/
def HasHistory (p : Package) : Prop :=
  ∃ name options operations, p = Operation.run { name, options } operations

theorem Reachable.hasHistory (h : p.Reachable) : p.HasHistory := by
  obtain ⟨name, options, operations, _, hp⟩ := h
  exact ⟨name, options, operations, hp⟩

theorem HasHistory.closed (h : p.HasHistory) : p.types.Closed := by
  obtain ⟨name, options, operations, rfl⟩ := h
  exact Operation.run_closed operations TypeTable.closed_builtins

/-- Every package knows the builtin types. -/
theorem HasHistory.extends_builtins (h : p.HasHistory) : p.types.Extends .builtins := by
  obtain ⟨name, options, operations, rfl⟩ := h
  exact Operation.run_extends operations { name, options }

/-- **Names keep their meaning.**  Let a package have any history.  Where a written type resolves,
it resolves to a type of the package, and after whatever operations come it resolves to the same
identity, with the same name and the same type behind it.  A written type whose base name is that of
a primitive, or one of its native spellings, resolves to that primitive, and one whose base name is
that of the text type to the text type. -/
theorem HasHistory.resolution_stable (h : p.HasHistory) :
    (∀ token hash, p.resolveType token = some hash →
      ∃ entry, p.types.get? hash = some entry ∧ p.typeName? hash = some entry.name ∧
        ∀ later : List Operation,
          (Operation.run p later).resolveType token = some hash ∧
          (Operation.run p later).types.get? hash = some entry ∧
          (Operation.run p later).typeName? hash = some entry.name) ∧
    (∀ (kind : Primitive) token,
      TypeName.normalize token = kind.name ∨ TypeName.normalize token ∈ kind.aliases →
        p.resolveType token = some kind.hash ∧
          p.types.get? kind.hash = some (.primitive kind)) ∧
    ∀ token, TypeName.normalize token = TypeName.textType →
      p.resolveType token = some (.ofName TypeName.textType) := by
  refine ⟨fun token hash hresolve => ?_, fun kind token hspelling => ?_, fun token htext => ?_⟩
  · obtain ⟨entry, hentry⟩ := h.closed _ _ hresolve
    have hname : p.typeName? hash = some entry.name := by
      rw [typeName?, TypeTable.nameOf?, hentry, Option.map_some]
    refine ⟨entry, hentry, hname, fun later => ?_⟩
    have hextends := Operation.run_extends later p
    exact ⟨hextends.names hresolve, hextends.types hentry, hextends.nameOf? hname⟩
  · have hnamed := TypeTable.find?_builtins hspelling
    have htyped := TypeTable.get?_builtins kind
    exact ⟨h.extends_builtins.names hnamed, h.extends_builtins.types htyped⟩
  · rw [resolveType, TypeTable.resolve, htext]
    exact h.extends_builtins.names TypeTable.find?_builtins_text

/-- Attempts to give names away that are taken, and a class put in the place of another. -/
def takeovers : List Operation :=
  [.registerAlias "long" "Node", .registerEnumeration ⟨0⟩ "Node",
    .registerClass ⟨0⟩ "String" "std::string",
    .replaceClass ⟨0⟩ { id := ⟨1⟩, name := "Mesh", nativeName := "scene::Mesh", module := ⟨0⟩ }]

/-- After all of them a pointer to a constant node is a node, `long` is the integer that it is
everywhere, and a C string is text. -/
theorem resolution_stable_mesh :
    (∃ entry, entry.kind = .boundClass ⟨0⟩ ∧
      meshPackage.types.get? (.ofName "Node") = some entry ∧
      (Operation.run meshPackage takeovers).resolveType "const Node*" = some (.ofName "Node") ∧
      (Operation.run meshPackage takeovers).types.get? (.ofName "Node") = some entry) ∧
    (Operation.run meshPackage takeovers).resolveType "const long&" = some Primitive.int32.hash ∧
    (Operation.run meshPackage takeovers).resolveType "const char*" = some (.ofName "String") := by
  have hmesh : meshPackage.HasHistory := reachable_meshPackage.hasHistory
  have hlater : (Operation.run meshPackage takeovers).HasHistory :=
    ⟨"scene", {}, meshHistory ++ takeovers, (Operation.run_append ..).symm⟩
  have hnode : meshPackage.resolveType "const Node*" = some (.ofName "Node") := by decide +kernel
  have hlong : TypeName.normalize "const long&" ∈ Primitive.int32.aliases := by decide +kernel
  have htext : TypeName.normalize "const char*" = TypeName.textType := by decide +kernel
  have hkind : (meshPackage.types.get? (.ofName "Node")).any (·.kind = .boundClass ⟨0⟩) := by
    decide +kernel
  refine ⟨?_, (hlater.resolution_stable.2.1 .int32 _ (Or.inr hlong)).1,
    hlater.resolution_stable.2.2 _ htext⟩
  obtain ⟨entry, hentry, _, hstays⟩ := hmesh.resolution_stable.1 _ _ hnode
  rw [hentry, Option.any_some, decide_eq_true_eq] at hkind
  exact ⟨entry, hkind, hentry, (hstays takeovers).1, (hstays takeovers).2.1⟩

end Package

end ClassBindings
