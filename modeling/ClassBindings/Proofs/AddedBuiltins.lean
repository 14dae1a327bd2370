import ClassBindings.TypeTable.History
import ClassBindings.Proofs.TypeNames

/-! # Builtins in a table that is in use

The builtins may be added to a table that has types and names already.  Each of them asks whether it
is there in its own way: a primitive asks for its identity, a spelling of it for the spelling, and
text for its name.  A builtin that is not there is then written under its name and its identity both,
so that two things of the table give way (`TypeTable.registerBuiltins_exact`): an alias that is the
name of a primitive, where the identity of the primitive is not taken, and a type with the identity
of text, where the name of text is not taken.

Neither comes about once the builtins have been added, since each of them finds itself there; adding
them again changes nothing (`TypeTable.HasBuiltins.registerBuiltins_eq`). -/
namespace ClassBindings.TypeTable

variable {table : TypeTable} {name : String} {kind : Primitive} {hash : TypeHash}
  {operations : List Operation}

/-! ## What operations keep -/

/-- Everything but adding the builtins makes one addition at most. -/
theorem Operation.addition_apply {op : Operation} (h : op ≠ .registerBuiltins)
    (table : TypeTable) : table.Addition (op.apply table) := by
  cases op with
  | register entry =>
    rcases register_cases entry table with ⟨e, he⟩ | ⟨hvacant, hok⟩
    · rw [apply, he]
      exact .nothing
    · rw [apply, hok]
      exact .type hvacant
  | registerAlias name target =>
    rcases registerAlias_cases name target table with ⟨e, he⟩ | ⟨hash, hname, htarget, hok⟩
    · rw [apply, he]
      exact .nothing
    · rw [apply, hok]
      exact .name hname htarget
  | registerBuiltins => exact absurd rfl h

/-- Every name leads to a type, and every type has a name that leads somewhere. -/
structure Sound (table : TypeTable) : Prop where
  closed : table.Closed
  listed : ∀ hash entry, table.get? hash = some entry → table.names.contains entry.name

theorem Sound.addition {later : TypeTable} (h : table.Sound) (hadd : table.Addition later) :
    later.Sound := by
  refine ⟨hadd.closed h.closed, fun hash entry hentry => ?_⟩
  cases hadd with
  | nothing => exact h.listed hash entry hentry
  | @type new hvacant =>
    rw [TypeTable.insert, Dictionary.contains_insert]
    rw [get?, TypeTable.insert, Dictionary.find?_insert] at hentry
    split at hentry
    · cases hentry
      exact Or.inl rfl
    · exact Or.inr (h.listed hash entry hentry)
  | name _ _ =>
    rw [Dictionary.contains_insert]
    exact Or.inr (h.listed hash entry hentry)

theorem Sound.registerBuiltins (h : table.Sound) : table.registerBuiltins.Sound where
  closed := h.closed.registerBuiltins
  listed hash entry hentry := by
    rcases get?_registerBuiltins_cases table hash with
      hsame | ⟨kind, rfl, hvacant, hget⟩ | ⟨_, _, hget⟩
    · rw [hsame] at hentry
      exact contains_registerBuiltins (h.listed hash entry hentry)
    · cases hget.symm.trans hentry
      have hname := find?_registerBuiltins_name (Option.not_isSome_iff_eq_none.2 hvacant)
      exact Option.isSome_iff_exists.2 ⟨_, hname⟩
    · cases hget.symm.trans hentry
      exact contains_registerBuiltins_text table

theorem sound_empty : empty.Sound := ⟨closed_empty, nofun⟩

theorem sound_ofHistory (operations : List Operation) : (ofHistory operations).Sound := by
  refine Operation.run_induction (fun op _ table h => ?_) sound_empty
  by_cases hop : op = .registerBuiltins
  · subst hop
    exact h.registerBuiltins
  · exact h.addition (op.addition_apply hop table)

/-! ## What gives way -/

/-- A name that leads to a type is taken over by the primitive of that name, if the table does not
have it, and by nothing else. -/
theorem find?_registerBuiltins_iff (h : table.Closed) (hname : table.names.find? name = some hash) :
    table.registerBuiltins.names.find? name = some hash ↔
      ∀ kind : Primitive, name = kind.name → (table.get? kind.hash).isSome := by
  constructor
  · rintro hlater kind rfl
    by_contra hvacant
    rw [find?_registerBuiltins_name hvacant] at hlater
    cases hlater
    exact hvacant (Option.isSome_iff_exists.2 (h _ _ hname))
  · intro htaken
    rcases find?_registerBuiltins_cases table name with
      hsame | ⟨kind, hvacant, _, hspelling⟩ | ⟨hnone, _⟩
    · rw [hsame, hname]
    · rcases hspelling with hkind | ⟨hnone, _⟩
      · exact absurd (htaken kind hkind) hvacant
      · cases hnone.symm.trans hname
    · cases hnone.symm.trans hname

/-- A type gives way to text, if it has the identity of text and the name of text is vacant, and to
nothing else. -/
theorem get?_registerBuiltins_iff {entry : TypeEntry} (h : table.Sound)
    (hentry : table.get? hash = some entry) :
    table.registerBuiltins.get? hash = some entry ↔
      (hash = .ofName TypeName.textType → table.names.contains TypeName.textType) := by
  constructor
  · rintro hlater rfl
    by_contra hname
    rw [get?_registerBuiltins_text, if_neg hname] at hlater
    cases hlater
    exact hname (h.listed _ _ hentry)
  · intro hname
    rcases get?_registerBuiltins_cases table hash with
      hsame | ⟨_, _, hvacant, _⟩ | ⟨htext, hvacant, _⟩
    · rw [hsame, hentry]
    · cases hvacant.symm.trans hentry
    · exact absurd (hname htext) hvacant

/-! ## Builtins that are there -/

/-- Every builtin is there, each by what it asks for itself. -/
structure HasBuiltins (table : TypeTable) : Prop where
  primitive : ∀ kind : Primitive, (table.get? kind.hash).isSome
  text : table.names.contains TypeName.textType

/-- **Builtins that are there are left alone.** -/
theorem HasBuiltins.registerBuiltins_eq (h : table.HasBuiltins) : table.registerBuiltins = table := by
  have hprimitives : ∀ kinds : List Primitive, kinds.foldl addPrimitive table = table := by
    intro kinds
    induction kinds with
    | nil => rfl
    | cons kind rest ih =>
      have hkind : table.addPrimitive kind = table := if_pos (h.primitive kind)
      rw [List.foldl_cons, hkind, ih]
  rw [registerBuiltins, hprimitives, addText, if_pos h.text]

theorem hasBuiltins_registerBuiltins (table : TypeTable) : table.registerBuiltins.HasBuiltins where
  primitive kind := isSome_registerBuiltins_primitive kind table
  text := contains_registerBuiltins_text table

theorem HasBuiltins.extends {later : TypeTable} (h : table.HasBuiltins)
    (hextends : later.Extends table) : later.HasBuiltins where
  primitive kind := by
    obtain ⟨entry, hentry⟩ := Option.isSome_iff_exists.1 (h.primitive kind)
    rw [hextends.types hentry]
    rfl
  text := by
    obtain ⟨hash, hhash⟩ := Option.isSome_iff_exists.1 h.text
    rw [Dictionary.contains, hextends.names hhash]
    rfl

/-- A table has the builtins ever after they have been added. -/
theorem hasBuiltins_ofHistory (h : .registerBuiltins ∈ operations) :
    (ofHistory operations).HasBuiltins := by
  obtain ⟨before, after, rfl⟩ := List.append_of_mem h
  rw [ofHistory, Operation.run_append, Operation.run_cons]
  refine Operation.run_induction (motive := HasBuiltins) (fun op _ table htable => ?_)
    (hasBuiltins_registerBuiltins _)
  by_cases hop : op = .registerBuiltins
  · subst hop
    exact hasBuiltins_registerBuiltins table
  · exact htable.extends (op.addition_apply hop table).extends

/-! ## Histories -/

/-- The operation leaves the names of the primitives to them: a type that it registers has the
identity of its name, and an alias is not the name of a primitive. -/
def Operation.SparesPrimitives : Operation → Prop
  | register entry => entry.hash = .ofName entry.name
  | registerAlias name _ => ∀ kind : Primitive, name ≠ kind.name
  | registerBuiltins => True

/-- A primitive is there if its name leads anywhere. -/
def HasNamedPrimitives (table : TypeTable) : Prop :=
  ∀ kind : Primitive, table.names.contains kind.name → (table.get? kind.hash).isSome

theorem HasNamedPrimitives.apply {op : Operation} (hop : op.SparesPrimitives)
    (h : table.HasNamedPrimitives) : (op.apply table).HasNamedPrimitives := by
  intro kind hname
  cases op with
  | register entry =>
    rw [Operation.apply] at hname ⊢
    rcases register_cases entry table with ⟨e, he⟩ | ⟨_, hok⟩
    · rw [he] at hname ⊢
      exact h kind hname
    · rw [hok, Edit.left] at hname ⊢
      rw [get?, TypeTable.insert, Dictionary.find?_insert]
      rw [TypeTable.insert, Dictionary.contains_insert] at hname
      split
      · rfl
      · rename_i hother
        refine h kind (hname.resolve_left fun hkind => hother ?_)
        rw [Primitive.hash, hkind, hop]
  | registerAlias name target =>
    rw [Operation.apply] at hname ⊢
    rcases registerAlias_cases name target table with ⟨e, he⟩ | ⟨hash, _, _, hok⟩
    · rw [he] at hname ⊢
      exact h kind hname
    · rw [hok, Edit.left] at hname ⊢
      rw [Dictionary.contains_insert] at hname
      exact h kind (hname.resolve_left fun hkind => hop kind hkind.symm)
  | registerBuiltins => exact (hasBuiltins_registerBuiltins table).primitive kind

theorem hasNamedPrimitives_ofHistory (h : ∀ op ∈ operations, op.SparesPrimitives) :
    (ofHistory operations).HasNamedPrimitives :=
  Operation.run_induction (fun op hop _ htable => htable.apply (h op hop)) nofun

/-- **What adding the builtins does to a table that is in use.**  Let a table have any history.  A
written type that resolves to an identity has a type behind it.  After the builtins have been added
it resolves to the same identity exactly if its base name is not that of a primitive that the table
does not have, and the same type is behind the identity exactly if that is not the one of text or
the name of text is taken.  What resolves otherwise afterwards has not resolved before, or has the
name of a primitive and resolves to it.  Where the builtins have been added before nothing changes;
and where every type was registered under the identity of its name, and no alias has the name of a
primitive, whatever resolves resolves to the same identity. -/
theorem registerBuiltins_exact (h : table = ofHistory operations) :
    (∀ token hash, table.resolve token = some hash →
      ∃ entry, table.get? hash = some entry ∧
        (table.registerBuiltins.resolve token = some hash ↔
          ∀ kind : Primitive, TypeName.normalize token = kind.name →
            (table.get? kind.hash).isSome) ∧
        (table.registerBuiltins.get? hash = some entry ↔
          (hash = .ofName TypeName.textType → table.names.contains TypeName.textType))) ∧
    (∀ token, table.registerBuiltins.resolve token ≠ table.resolve token →
      table.resolve token = none ∨
        ∃ kind : Primitive, TypeName.normalize token = kind.name ∧
          table.registerBuiltins.resolve token = some kind.hash) ∧
    (.registerBuiltins ∈ operations → table.registerBuiltins = table) ∧
    ((∀ op ∈ operations, op.SparesPrimitives) → ∀ token hash,
      table.resolve token = some hash → table.registerBuiltins.resolve token = some hash) := by
  subst h
  have hsound := sound_ofHistory operations
  refine ⟨fun token hash hresolve => ?_, fun token hchanged => ?_, fun hadded => ?_,
    fun hspares token hash hresolve => ?_⟩
  · obtain ⟨entry, hentry⟩ := hsound.closed _ _ hresolve
    exact ⟨entry, hentry, find?_registerBuiltins_iff hsound.closed hresolve,
      get?_registerBuiltins_iff hsound hentry⟩
  · rcases find?_registerBuiltins_cases (ofHistory operations) (TypeName.normalize token) with
      hsame | ⟨kind, _, hfind, hspelling⟩ | ⟨hnone, _⟩
    · exact absurd hsame hchanged
    · rcases hspelling with hname | ⟨hnone, _⟩
      · exact Or.inr ⟨kind, hname, hfind⟩
      · exact Or.inl hnone
    · exact Or.inl hnone
  · exact (hasBuiltins_ofHistory hadded).registerBuiltins_eq
  · refine (find?_registerBuiltins_iff hsound.closed hresolve).2 fun kind hname => ?_
    refine hasNamedPrimitives_ofHistory hspares kind ?_
    rw [Dictionary.contains, ← hname, ← resolve, hresolve, Option.isSome_some]

/-- A class with an alias that is a spelling of a primitive, but not its name. -/
def spelledNode : List Operation :=
  [.register (.ofName "Node" (.boundClass ⟨0⟩)), .registerAlias "long" "Node"]

/-- The spelling is the class before and after, with the class behind it. -/
theorem registerBuiltins_exact_node :
    (ofHistory spelledNode).registerBuiltins.resolve "const long&" = some (.ofName "Node") ∧
      (ofHistory spelledNode).registerBuiltins.get? (.ofName "Node") =
        (ofHistory spelledNode).get? (.ofName "Node") ∧
      (ofHistory (spelledNode ++ [.registerBuiltins])).registerBuiltins =
        ofHistory (spelledNode ++ [.registerBuiltins]) := by
  have hspares : ∀ op ∈ spelledNode, op.SparesPrimitives := by
    intro op hop
    rcases List.mem_pair.1 hop with rfl | rfl
    · exact rfl
    · intro kind
      cases kind <;> decide
  have hresolve : (ofHistory spelledNode).resolve "const long&" = some (.ofName "Node") := by
    decide +kernel
  have hidentity : TypeHash.ofName "Node" ≠ .ofName TypeName.textType := by decide +kernel
  have hhistory : ofHistory spelledNode = ofHistory spelledNode := rfl
  obtain ⟨hstays, _, _, hkept⟩ := registerBuiltins_exact hhistory
  obtain ⟨entry, hentry, _, hbehind⟩ := hstays _ _ hresolve
  refine ⟨hkept hspares _ _ hresolve, ?_, ?_⟩
  · rw [hbehind.2 fun h => absurd h hidentity, hentry]
  · exact (registerBuiltins_exact rfl).2.2.1 (by simp)

/-- A class with an alias that is the name of a primitive. -/
def aliasedNode : List Operation :=
  [.register (.ofName "Node" (.boundClass ⟨0⟩)), .registerAlias "int" "Node"]

/-- A class with a name of the same digest as the name of text. -/
def textLikeClass : List Operation := [.register (.ofName "PalipidoKygxAdje" (.boundClass ⟨0⟩))]

/-- **An alias and a type give way.**  The alias leads to the integers after the builtins have been
added, and text is behind the identity of the class. -/
theorem registerBuiltins_displaces :
    (ofHistory aliasedNode).resolve "int" = some (.ofName "Node") ∧
      (ofHistory aliasedNode).registerBuiltins.resolve "int" = some Primitive.int32.hash ∧
      (ofHistory textLikeClass).resolve "PalipidoKygxAdje" = some (.ofName TypeName.textType) ∧
      ((ofHistory textLikeClass).get? (.ofName TypeName.textType)).any
        (·.kind = .boundClass ⟨0⟩) ∧
      (ofHistory textLikeClass).registerBuiltins.get? (.ofName TypeName.textType) = some .text ∧
      ¬∀ operations : List Operation,
        (∀ entry, .register entry ∈ operations → entry = .ofName entry.name entry.kind) →
          ∀ token hash, (ofHistory operations).resolve token = some hash →
            (ofHistory operations).registerBuiltins.resolve token = some hash := by
  have halias : (ofHistory aliasedNode).resolve "int" = some (.ofName "Node") := by decide +kernel
  have htaken : (ofHistory aliasedNode).registerBuiltins.resolve "int" =
      some Primitive.int32.hash := by
    decide +kernel
  have hdifferent : Primitive.int32.hash ≠ .ofName "Node" := by decide +kernel
  refine ⟨halias, htaken, by decide +kernel, by decide +kernel, by decide +kernel, fun h => ?_⟩
  have hnamed : ∀ entry, .register entry ∈ aliasedNode → entry = .ofName entry.name entry.kind := by
    intro entry hentry
    rcases List.mem_pair.1 hentry with hnode | hnode
    · cases hnode
      rfl
    · cases hnode
  have hsame := h aliasedNode hnamed _ _ halias
  exact hdifferent (Option.some.inj (htaken.symm.trans hsame))

end ClassBindings.TypeTable
