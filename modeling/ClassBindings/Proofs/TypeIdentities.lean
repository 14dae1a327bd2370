import ClassBindings.Proofs.AddedBuiltins

/-! # Types are filed under their identities

A table may be given a type of any name and any identity, before the builtins and after, and the
builtins write over what is there.  However a table came about, it stays in order: behind a name
there is always a type, and that type has the identity that the name leads to.

Two things come together.  No operation leaves a name without a type (`sound_ofHistory`).  And
whatever an operation does to the types of a table, it does by writing types in turn, each under the
identity that it carries (`Operation.writes_apply`); so a type is not found under another identity
(`Writes.keyed`), and there are never fewer types than there were (`Writes.size_le`).

A registration or an alias that is refused leaves no trace (`atomic_register`,
`atomic_registerAlias`). -/
namespace ClassBindings.TypeTable

variable {table middle later : TypeTable}

/-! ## Types written in turn -/

/-- The types of the later table come of those of the earlier one by writing types in turn, each
under its own identity. -/
inductive Writes (table : TypeTable) : TypeTable → Prop
  | nothing {later : TypeTable} (h : later.types = table.types) : Writes table later
  | type {middle later : TypeTable} (hbefore : Writes table middle) (entry : TypeEntry)
      (h : later.types = middle.types.insert entry.hash entry) : Writes table later

namespace Writes

theorem refl (table : TypeTable) : Writes table table := .nothing rfl

theorem insert (table : TypeTable) (entry : TypeEntry) : Writes table (table.insert entry) :=
  .type (.refl table) entry rfl

theorem trans (h : Writes table middle) (h' : Writes middle later) : Writes table later := by
  induction h' with
  | nothing hsame =>
    cases h with
    | nothing h => exact .nothing (hsame.trans h)
    | type hbefore entry h => exact .type hbefore entry (hsame.trans h)
  | type _ entry hwritten ih => exact .type ih entry hwritten

end Writes

theorem writes_addPrimitive (kind : Primitive) (table : TypeTable) :
    Writes table (table.addPrimitive kind) := by
  rw [addPrimitive]
  split
  · exact .refl table
  · exact .type (.refl table) (.primitive kind) rfl

theorem writes_addPrimitives (kinds : List Primitive) (table : TypeTable) :
    Writes table (kinds.foldl addPrimitive table) := by
  induction kinds generalizing table with
  | nil => exact .refl table
  | cons kind rest ih => exact (writes_addPrimitive kind table).trans (ih _)

theorem writes_addText (table : TypeTable) : Writes table table.addText := by
  rw [addText]
  split
  · exact .refl table
  · exact .insert table .text

theorem Addition.writes (h : table.Addition later) : Writes table later := by
  cases h with
  | nothing => exact .refl table
  | type _ => exact .insert table _
  | name _ _ => exact .nothing rfl

/-- **Operations write types under their identities.** -/
theorem Operation.writes_apply (op : Operation) (table : TypeTable) :
    Writes table (op.apply table) := by
  by_cases hop : op = .registerBuiltins
  · subst hop
    rw [apply, TypeTable.registerBuiltins]
    exact (writes_addPrimitives Primitive.all table).trans (writes_addText _)
  · exact (op.addition_apply hop table).writes

theorem Operation.writes_run (operations : List Operation) (table : TypeTable) :
    Writes table (run table operations) :=
  run_induction (fun op _ table h => h.trans (op.writes_apply table)) (.refl table)

/-! ## What writing keeps -/

/-- Types are found under their own identities only. -/
def Keyed (table : TypeTable) : Prop :=
  ∀ hash entry, table.get? hash = some entry → entry.hash = hash

theorem Writes.keyed (h : Writes table later) (hkeyed : table.Keyed) : later.Keyed := by
  induction h with
  | nothing hsame =>
    intro hash entry hentry
    rw [get?, hsame] at hentry
    exact hkeyed hash entry hentry
  | type _ new hwritten ih =>
    intro hash entry hentry
    rw [get?, hwritten, Dictionary.find?_insert] at hentry
    split at hentry
    · rename_i hhash
      cases hentry
      exact hhash.symm
    · exact ih hash entry hentry

theorem Writes.size_le (h : Writes table later) : table.size ≤ later.size := by
  induction h with
  | nothing hsame => exact Nat.le_of_eq (by rw [size, size, hsame])
  | @type middle later _ new hwritten ih =>
    calc table.size ≤ middle.size := ih
      _ ≤ (middle.types.insert new.hash new).size := middle.types.size_le_size_insert _ _
      _ = later.size := by rw [size, hwritten]

theorem keyed_ofHistory (operations : List Operation) : (ofHistory operations).Keyed :=
  (Operation.writes_run operations empty).keyed nofun

/-! ## Edits that are refused -/

theorem atomic_register (entry : TypeEntry) : Edit.Atomic (register entry) :=
  Edit.atomic_of_cases fun table =>
    (register_cases entry table).imp_right fun ⟨_, hok⟩ => ⟨_, _, hok⟩

theorem atomic_registerAlias (name target : String) : Edit.Atomic (registerAlias name target) :=
  Edit.atomic_of_cases fun table =>
    (registerAlias_cases name target table).imp_right fun ⟨_, _, _, hok⟩ => ⟨_, _, hok⟩

/-- **An alias is made of a name that is free and a target that resolves**, and it yields the
identity that the target resolves to. -/
theorem registerAlias_ok_iff {name target : String} {hash : TypeHash} :
    (∃ after, registerAlias name target table = .ok hash after) ↔
      ¬table.names.contains name ∧ table.resolve target = some hash := by
  constructor
  · rintro ⟨after, hafter⟩
    rcases registerAlias_cases name target table with ⟨e, he⟩ | ⟨found, hname, htarget, hok⟩
    · cases he.symm.trans hafter
    · cases hok.symm.trans hafter
      exact ⟨hname, htarget⟩
  · rintro ⟨hname, htarget⟩
    have hcheck : table.aliasTarget name target = .ok hash :=
      aliasTarget_eq_ok_iff.2 ⟨hname, htarget⟩
    rw [registerAlias, Edit.bind_get, Edit.bind_check_ok hcheck]
    exact ⟨_, rfl⟩

/-! ## Histories -/

/-- **A table is in order, whatever its history.**  Let a table have any history of types registered
under any names and identities, aliases, and the builtins.  Where a written type resolves, or a name
leads as it stands, there is a type behind the identity, and it has that identity; no type is filed
under another one.  What comes later never leaves the table with fewer types.  An alias is accepted
exactly if its name is free and its target resolves, and yields the identity that the target
resolved to.  A type or an alias that is refused leaves the table as it was. -/
theorem ofHistory_in_order (operations : List Operation) :
    let table := ofHistory operations
    (∀ name hash, table.resolve name = some hash ∨ table.names.find? name = some hash →
      ∃ entry, table.get? hash = some entry ∧ entry.hash = hash) ∧
    (∀ hash entry, table.get? hash = some entry → entry.hash = hash) ∧
    (∀ later, table.size ≤ (ofHistory (operations ++ later)).size) ∧
    (∀ name target hash, (∃ after, registerAlias name target table = .ok hash after) ↔
      ¬table.names.contains name ∧ table.resolve target = some hash) ∧
    (∀ entry e after, register entry table = .error e after → after = table) ∧
    ∀ name target e after, registerAlias name target table = .error e after → after = table := by
  intro table
  have hkeyed : table.Keyed := keyed_ofHistory operations
  have hclosed : table.Closed := (sound_ofHistory operations).closed
  refine ⟨fun name hash hleads => ?_, hkeyed, fun later => ?_, fun _ _ _ => registerAlias_ok_iff,
    fun entry => atomic_register entry table,
    fun name target => atomic_registerAlias name target table⟩
  · obtain ⟨entry, hentry⟩ : ∃ entry, table.get? hash = some entry :=
      hleads.elim (hclosed _ _) (hclosed _ _)
    exact ⟨entry, hentry, hkeyed hash entry hentry⟩
  · rw [ofHistory, Operation.run_append]
    exact (Operation.writes_run later table).size_le

/-- A class under the identity of another name, the builtins, and an alias of the class. -/
def misfiledNode : List Operation :=
  [.register ⟨"Node", .ofName "Mesh", .boundClass ⟨0⟩⟩, .registerBuiltins,
    .registerAlias "Actor" "const Node&"]

/-- A pointer to an actor is what has the identity of a mesh, a mesh cannot be registered any more,
and the alias of an alias has the same identity. -/
theorem ofHistory_in_order_misfiled :
    (ofHistory misfiledNode).resolve "Actor*" = some (.ofName "Mesh") ∧
      (∃ entry, (ofHistory misfiledNode).get? (.ofName "Mesh") = some entry ∧
        entry.hash = .ofName "Mesh") ∧
      (∃ after, registerAlias "Hero" "Actor" (ofHistory misfiledNode) =
        .ok (.ofName "Mesh") after) ∧
      ∃ e, register (.ofName "Mesh" .text) (ofHistory misfiledNode) =
        .error e (ofHistory misfiledNode) := by
  have hpointer : (ofHistory misfiledNode).resolve "Actor*" = some (.ofName "Mesh") := by
    decide +kernel
  have hactor : (ofHistory misfiledNode).resolve "Actor" = some (.ofName "Mesh") := by
    decide +kernel
  have hfree : ¬(ofHistory misfiledNode).names.contains "Hero" := by decide +kernel
  have htaken : ¬(register (.ofName "Mesh" .text)).isOk (ofHistory misfiledNode) := by
    decide +kernel
  obtain ⟨hbehind, _, _, halias, hrefused, _⟩ := ofHistory_in_order misfiledNode
  obtain ⟨e, after, herror⟩ := Edit.exists_of_not_isOk htaken
  refine ⟨hpointer, hbehind _ _ (Or.inl hpointer), (halias _ _ _).2 ⟨hfree, hactor⟩, e, ?_⟩
  rw [herror, hrefused _ e after herror]

end ClassBindings.TypeTable
