import Mathlib.Data.List.Nodup
import ClassBindings.TypeTable

/-! # Builtin types

Adding the builtins to a table goes through the primitives one by one, and through the spellings of
each.  A spelling belongs to one primitive (`Primitive.ofName?_eq_some_iff`) and an identity to one
primitive (`Primitive.hash_inj`), so what becomes of a name is decided by its own primitive alone
(`TypeTable.find?_registerBuiltins_of_spelling`), and so is what becomes of an identity
(`TypeTable.get?_registerBuiltins_primitive`), whatever the table holds.

In the table that has nothing but the builtins, the names that lead to a type are thus those that
the search through the primitives knows, and that of text (`TypeTable.builtins_exact`). -/
namespace ClassBindings

/-! ## Spellings and identities -/

namespace Primitive

variable {name : String} {kind other : Primitive}

/-- **A spelling belongs to one primitive.** -/
theorem ofName?_eq_some_iff : ofName? name = some kind ↔ name = kind.name ∨ name ∈ kind.aliases := by
  constructor
  · intro h
    have hfound := List.find?_some h
    simp only [Bool.or_eq_true, decide_eq_true_eq, List.contains_iff_mem] at hfound
    exact hfound.imp_left Eq.symm
  · intro h
    have hall : ∀ kind ∈ all, ∀ name ∈ kind.name :: kind.aliases, ofName? name = some kind := by
      decide
    exact hall kind kind.mem_all name (List.mem_cons.2 h)

theorem ofName?_textType : ofName? TypeName.textType = none := by decide

/-- The name of text is no spelling of a primitive. -/
theorem ne_textType (h : ofName? name = some kind) : name ≠ TypeName.textType := by
  rintro rfl
  cases ofName?_textType.symm.trans h

/-- No two builtins have the same identity. -/
theorem nodup_hashes : (TypeHash.ofName TypeName.textType :: all.map hash).Nodup := by
  decide +kernel

/-- **An identity belongs to one primitive.** -/
theorem hash_inj : kind.hash = other.hash ↔ kind = other := by
  refine ⟨fun h => ?_, congrArg hash⟩
  exact List.inj_on_of_nodup_map (List.nodup_cons.1 nodup_hashes).2 kind.mem_all other.mem_all h

theorem hash_ne_text (kind : Primitive) : kind.hash ≠ .ofName TypeName.textType := by
  intro h
  have hmem : TypeHash.ofName TypeName.textType ∈ all.map hash :=
    List.mem_map.2 ⟨kind, kind.mem_all, h⟩
  exact (List.nodup_cons.1 nodup_hashes).1 hmem

end Primitive

namespace TypeTable

variable {table : TypeTable} {name : String} {kind : Primitive} {hash : TypeHash}

/-! ## One builtin -/

theorem find?_addAliases (names : Dictionary String TypeHash) (aliases : List String)
    (hash : TypeHash) (name : String) :
    (aliases.foldl (·.insertIfAbsent · hash) names).find? name =
      if name ∈ aliases then (names.find? name).or (some hash) else names.find? name := by
  induction aliases generalizing names with
  | nil => rfl
  | cons spelling rest ih =>
    rw [List.foldl_cons, ih, Dictionary.find?_insertIfAbsent]
    by_cases hname : name = spelling
    · subst hname
      by_cases hrest : name ∈ rest
      · cases h : names.find? name <;> simp [hrest]
      · simp [hrest]
    · simp [hname]

/-- **What becomes of a name when a primitive is added**: nothing, if the table has the primitive.
Else the name of the primitive leads to it, whatever it has led to, and a spelling of it that has
led to nothing does. -/
theorem find?_addPrimitive (table : TypeTable) (kind : Primitive) (name : String) :
    (table.addPrimitive kind).names.find? name =
      if (table.get? kind.hash).isSome then table.names.find? name
      else if name = kind.name then some kind.hash
      else if name ∈ kind.aliases then (table.names.find? name).or (some kind.hash)
      else table.names.find? name := by
  rw [addPrimitive, Dictionary.contains, ← get?]
  by_cases htaken : (table.get? kind.hash).isSome
  · rw [if_pos htaken, if_pos htaken]
  · rw [if_neg htaken, if_neg htaken]
    refine (find?_addAliases _ _ _ _).trans ?_
    have hinsert : (table.insert (.primitive kind)).names.find? name =
        if name = kind.name then some kind.hash else table.names.find? name :=
      Dictionary.find?_insert table.names kind.name name kind.hash
    rw [hinsert]
    by_cases hname : name = kind.name
    · rw [if_pos hname, if_pos hname, Option.some_or, ite_self]
    · rw [if_neg hname, if_neg hname]

theorem get?_addPrimitive (table : TypeTable) (kind : Primitive) (hash : TypeHash) :
    (table.addPrimitive kind).get? hash =
      if hash = kind.hash then (table.get? hash).or (some (.primitive kind))
      else table.get? hash := by
  rw [addPrimitive, Dictionary.contains, ← get?]
  have hinsert : (table.insert (.primitive kind)).get? hash =
      if hash = kind.hash then some (.primitive kind) else table.get? hash :=
    Dictionary.find?_insert table.types kind.hash hash (.primitive kind)
  by_cases hhash : hash = kind.hash
  · subst hhash
    cases htaken : table.get? kind.hash with
    | some entry => simpa using htaken
    | none =>
      rw [if_neg (by simp), if_pos rfl, Option.none_or]
      exact hinsert.trans (if_pos rfl)
  · rw [if_neg hhash] at hinsert ⊢
    split
    · rfl
    · exact hinsert

theorem find?_addText (table : TypeTable) (name : String) :
    table.addText.names.find? name =
      if name = TypeName.textType then
        (table.names.find? name).or (some (.ofName TypeName.textType))
      else table.names.find? name := by
  rw [addText, Dictionary.contains]
  have hinsert : (table.insert .text).names.find? name =
      if name = TypeName.textType then some (.ofName TypeName.textType)
      else table.names.find? name :=
    Dictionary.find?_insert table.names TypeName.textType name _
  by_cases hname : name = TypeName.textType
  · subst hname
    cases htaken : table.names.find? TypeName.textType with
    | some taken => simpa using htaken
    | none => simpa using hinsert
  · rw [if_neg hname] at hinsert ⊢
    split
    · rfl
    · exact hinsert

theorem get?_addText (table : TypeTable) (hash : TypeHash) :
    table.addText.get? hash =
      if hash = .ofName TypeName.textType ∧ ¬table.names.contains TypeName.textType then some .text
      else table.get? hash := by
  rw [addText]
  by_cases htaken : table.names.contains TypeName.textType
  · simp [htaken]
  · have hinsert : (table.insert .text).get? hash =
        if hash = .ofName TypeName.textType then some .text else table.get? hash :=
      Dictionary.find?_insert table.types _ hash .text
    simpa [htaken] using hinsert

/-! ## All primitives -/

/-- Primitives that do not have the spelling leave the name alone. -/
theorem find?_addPrimitives_of_ne {kinds : List Primitive}
    (h : ∀ kind ∈ kinds, Primitive.ofName? name ≠ some kind) (table : TypeTable) :
    (kinds.foldl addPrimitive table).names.find? name = table.names.find? name := by
  induction kinds generalizing table with
  | nil => rfl
  | cons kind rest ih =>
    obtain ⟨hkind, hrest⟩ := List.forall_mem_cons.1 h
    obtain ⟨hname, halias⟩ := not_or.1 (mt Primitive.ofName?_eq_some_iff.2 hkind)
    rw [List.foldl_cons, ih hrest, find?_addPrimitive, if_neg hname, if_neg halias, ite_self]

/-- Primitives leave a name alone that is no spelling. -/
theorem find?_addPrimitives_of_none (h : Primitive.ofName? name = none) (kinds : List Primitive)
    (table : TypeTable) :
    (kinds.foldl addPrimitive table).names.find? name = table.names.find? name :=
  find?_addPrimitives_of_ne (fun _ _ hkind => nomatch h.symm.trans hkind) table

/-- Primitives of other identities leave the type alone. -/
theorem get?_addPrimitives_of_ne {kinds : List Primitive} (h : ∀ kind ∈ kinds, hash ≠ kind.hash)
    (table : TypeTable) : (kinds.foldl addPrimitive table).get? hash = table.get? hash := by
  induction kinds generalizing table with
  | nil => rfl
  | cons kind rest ih =>
    obtain ⟨hkind, hrest⟩ := List.forall_mem_cons.1 h
    rw [List.foldl_cons, ih hrest, get?_addPrimitive, if_neg hkind]

/-- A primitive stands among others. -/
theorem all_split (kind : Primitive) :
    ∃ before after, Primitive.all = before ++ kind :: after ∧
      (∀ other ∈ before, kind ≠ other) ∧ ∀ other ∈ after, kind ≠ other := by
  obtain ⟨before, after, hall⟩ := List.append_of_mem kind.mem_all
  have hnodup : Primitive.all.Nodup := by decide
  rw [hall] at hnodup
  refine ⟨before, after, hall, fun other hother => ?_, fun other hother => ?_⟩
  · exact ((List.nodup_append.1 hnodup).2.2 other hother kind List.mem_cons_self).symm
  · exact fun h => (List.nodup_cons.1 (List.nodup_append.1 hnodup).2.1).1 (h ▸ hother)

/-- **What becomes of a spelling is decided by its own primitive.** -/
theorem find?_addPrimitives (h : Primitive.ofName? name = some kind) (table : TypeTable) :
    (Primitive.all.foldl addPrimitive table).names.find? name =
      (table.addPrimitive kind).names.find? name := by
  obtain ⟨before, after, hall, hbefore, hafter⟩ := all_split kind
  have hspelling : ∀ other, kind ≠ other → Primitive.ofName? name ≠ some other :=
    fun other hne hother => hne (Option.some.inj (h.symm.trans hother))
  -- The table that the primitive is added to agrees with the first one as far as it matters.
  have hnames := find?_addPrimitives_of_ne (fun o ho => hspelling o (hbefore o ho)) table
  have htypes := get?_addPrimitives_of_ne
    (fun o ho => mt Primitive.hash_inj.1 (hbefore o ho)) table
  rw [hall, List.foldl_append, List.foldl_cons,
    find?_addPrimitives_of_ne (fun o ho => hspelling o (hafter o ho)), find?_addPrimitive,
    find?_addPrimitive, hnames, htypes]

theorem get?_addPrimitives (kind : Primitive) (table : TypeTable) :
    (Primitive.all.foldl addPrimitive table).get? kind.hash =
      (table.get? kind.hash).or (some (.primitive kind)) := by
  obtain ⟨before, after, hall, hbefore, hafter⟩ := all_split kind
  have hidentity : ∀ other, kind ≠ other → kind.hash ≠ other.hash :=
    fun other hne => mt Primitive.hash_inj.1 hne
  rw [hall, List.foldl_append, List.foldl_cons,
    get?_addPrimitives_of_ne fun o ho => hidentity o (hafter o ho), get?_addPrimitive, if_pos rfl,
    get?_addPrimitives_of_ne fun o ho => hidentity o (hbefore o ho)]

/-! ## All builtins -/

/-- The name of text leads where it has led, or else to text. -/
theorem find?_registerBuiltins_text (table : TypeTable) :
    table.registerBuiltins.names.find? TypeName.textType =
      (table.names.find? TypeName.textType).or (some (.ofName TypeName.textType)) := by
  rw [registerBuiltins, find?_addText, if_pos rfl,
    find?_addPrimitives_of_none Primitive.ofName?_textType]

/-- **What becomes of the spelling of a primitive when the builtins are added.** -/
theorem find?_registerBuiltins_of_spelling (h : Primitive.ofName? name = some kind)
    (table : TypeTable) :
    table.registerBuiltins.names.find? name = (table.addPrimitive kind).names.find? name := by
  rw [registerBuiltins, find?_addText, if_neg (Primitive.ne_textType h), find?_addPrimitives h]

/-- **A primitive that is not there takes its name**, whatever that leads to. -/
theorem find?_registerBuiltins_name (h : ¬(table.get? kind.hash).isSome) :
    table.registerBuiltins.names.find? kind.name = some kind.hash := by
  rw [find?_registerBuiltins_of_spelling kind.ofName?_name, find?_addPrimitive, if_neg h,
    if_pos rfl]

/-- A name that no builtin has is left alone. -/
theorem find?_registerBuiltins_of_other (h : Primitive.ofName? name = none)
    (hname : name ≠ TypeName.textType) (table : TypeTable) :
    table.registerBuiltins.names.find? name = table.names.find? name := by
  rw [registerBuiltins, find?_addText, if_neg hname, find?_addPrimitives_of_none h]

/-- **A primitive is added where its identity is not taken.** -/
theorem get?_registerBuiltins_primitive (kind : Primitive) (table : TypeTable) :
    table.registerBuiltins.get? kind.hash =
      (table.get? kind.hash).or (some (.primitive kind)) := by
  rw [registerBuiltins, get?_addText, if_neg fun h => kind.hash_ne_text h.1, get?_addPrimitives]

/-- Text is added where its name is not taken, whatever has its identity. -/
theorem get?_registerBuiltins_text (table : TypeTable) :
    table.registerBuiltins.get? (.ofName TypeName.textType) =
      if table.names.contains TypeName.textType then table.get? (.ofName TypeName.textType)
      else some .text := by
  rw [registerBuiltins, get?_addText, Dictionary.contains,
    find?_addPrimitives_of_none Primitive.ofName?_textType, ← Dictionary.contains,
    get?_addPrimitives_of_ne fun kind _ => kind.hash_ne_text.symm]
  by_cases htaken : table.names.contains TypeName.textType <;> simp [htaken]

/-- A type that is no builtin is left alone. -/
theorem get?_registerBuiltins_of_other (h : ∀ kind : Primitive, hash ≠ kind.hash)
    (htext : hash ≠ .ofName TypeName.textType) (table : TypeTable) :
    table.registerBuiltins.get? hash = table.get? hash := by
  rw [registerBuiltins, get?_addText, if_neg fun h => htext h.1,
    get?_addPrimitives_of_ne fun kind _ => h kind]

/-- Every primitive is there afterwards. -/
theorem isSome_registerBuiltins_primitive (kind : Primitive) (table : TypeTable) :
    (table.registerBuiltins.get? kind.hash).isSome := by
  rw [get?_registerBuiltins_primitive, Option.isSome_or, Option.isSome_some, Bool.or_true]

/-- The name of text leads somewhere afterwards. -/
theorem contains_registerBuiltins_text (table : TypeTable) :
    table.registerBuiltins.names.contains TypeName.textType := by
  rw [Dictionary.contains, find?_registerBuiltins_text, Option.isSome_or, Option.isSome_some,
    Bool.or_true]

/-- **What becomes of an identity when the builtins are added**: the same type is behind it, or it is
that of a primitive and vacant, or it is that of text, whose name is vacant. -/
theorem get?_registerBuiltins_cases (table : TypeTable) (hash : TypeHash) :
    table.registerBuiltins.get? hash = table.get? hash ∨
    (∃ kind : Primitive, hash = kind.hash ∧ table.get? hash = none ∧
      table.registerBuiltins.get? hash = some (.primitive kind)) ∨
    hash = .ofName TypeName.textType ∧ ¬table.names.contains TypeName.textType ∧
      table.registerBuiltins.get? hash = some .text := by
  by_cases hprimitive : ∃ kind : Primitive, hash = kind.hash
  · obtain ⟨kind, rfl⟩ := hprimitive
    rw [get?_registerBuiltins_primitive]
    cases htaken : table.get? kind.hash with
    | some entry => exact Or.inl rfl
    | none => exact Or.inr (Or.inl ⟨kind, rfl, rfl, rfl⟩)
  · by_cases htext : hash = .ofName TypeName.textType
    · subst htext
      rw [get?_registerBuiltins_text]
      by_cases hname : table.names.contains TypeName.textType
      · exact Or.inl (if_pos hname)
      · exact Or.inr (Or.inr ⟨rfl, hname, if_neg hname⟩)
    · exact Or.inl (get?_registerBuiltins_of_other (not_exists.1 hprimitive) htext table)

/-- A type that is there may become another one but not go. -/
theorem isSome_get?_registerBuiltins (h : (table.get? hash).isSome) :
    (table.registerBuiltins.get? hash).isSome := by
  rcases get?_registerBuiltins_cases table hash with hsame | ⟨_, _, _, hget⟩ | ⟨_, _, hget⟩
  · rw [hsame]
    exact h
  · rw [hget, Option.isSome_some]
  · rw [hget, Option.isSome_some]

/-- **What becomes of a name when the builtins are added**: it leads to what it has led to, or it is
a spelling of a primitive that the table does not have, or it is the name of text. -/
theorem find?_registerBuiltins_cases (table : TypeTable) (name : String) :
    table.registerBuiltins.names.find? name = table.names.find? name ∨
    (∃ kind : Primitive, ¬(table.get? kind.hash).isSome ∧
      table.registerBuiltins.names.find? name = some kind.hash ∧
      (name = kind.name ∨ table.names.find? name = none ∧ name ∈ kind.aliases)) ∨
    table.names.find? name = none ∧ name = TypeName.textType ∧
      table.registerBuiltins.names.find? name = some (.ofName TypeName.textType) := by
  cases hspelling : Primitive.ofName? name with
  | some kind =>
    rw [find?_registerBuiltins_of_spelling hspelling, find?_addPrimitive]
    by_cases htaken : (table.get? kind.hash).isSome
    · rw [if_pos htaken]
      exact Or.inl rfl
    rw [if_neg htaken]
    by_cases hname : name = kind.name
    · rw [if_pos hname]
      exact Or.inr (Or.inl ⟨kind, htaken, rfl, Or.inl hname⟩)
    · have halias := (Primitive.ofName?_eq_some_iff.1 hspelling).resolve_left hname
      rw [if_neg hname, if_pos halias]
      cases hfind : table.names.find? name with
      | some taken => exact Or.inl rfl
      | none => exact Or.inr (Or.inl ⟨kind, htaken, rfl, Or.inr ⟨rfl, halias⟩⟩)
  | none =>
    by_cases hname : name = TypeName.textType
    · subst hname
      rw [find?_registerBuiltins_text]
      cases hfind : table.names.find? TypeName.textType with
      | some taken => exact Or.inl rfl
      | none => exact Or.inr (Or.inr ⟨rfl, rfl, rfl⟩)
    · exact Or.inl (find?_registerBuiltins_of_other hspelling hname table)

/-- A name that leads somewhere leads somewhere afterwards. -/
theorem contains_registerBuiltins (h : table.names.contains name) :
    table.registerBuiltins.names.contains name := by
  rw [Dictionary.contains]
  rcases find?_registerBuiltins_cases table name with hsame | ⟨kind, _, hfind, _⟩ | ⟨_, _, hfind⟩
  · rw [hsame]
    exact h
  · rw [hfind, Option.isSome_some]
  · rw [hfind, Option.isSome_some]

/-! ## Nothing but builtins -/

theorem find?_builtins (h : name = kind.name ∨ name ∈ kind.aliases) :
    builtins.names.find? name = some kind.hash := by
  have hvacant : ¬(empty.get? kind.hash).isSome := by
    rw [get?, empty, Dictionary.find?_empty]
    decide
  rw [builtins, find?_registerBuiltins_of_spelling (Primitive.ofName?_eq_some_iff.2 h),
    find?_addPrimitive, if_neg hvacant]
  rcases h with hname | halias
  · rw [if_pos hname]
  · rw [if_pos halias, empty, Dictionary.find?_empty, Option.none_or, ite_self]

theorem find?_builtins_text :
    builtins.names.find? TypeName.textType = some (.ofName TypeName.textType) :=
  find?_registerBuiltins_text empty

theorem find?_builtins_of_other (h : Primitive.ofName? name = none)
    (hname : name ≠ TypeName.textType) : builtins.names.find? name = none :=
  find?_registerBuiltins_of_other h hname empty

theorem get?_builtins (kind : Primitive) : builtins.get? kind.hash = some (.primitive kind) :=
  get?_registerBuiltins_primitive kind empty

theorem get?_builtins_text : builtins.get? (.ofName TypeName.textType) = some .text :=
  get?_registerBuiltins_text empty

/-- **The table of the builtins describes the names that the search through the primitives does.**
A written type resolves to a primitive exactly if the search finds that primitive by its base name,
to text exactly if its base name is that of text, and otherwise to nothing; and each of these types
has its canonical name. -/
theorem builtins_exact (token : String) :
    (∀ kind : Primitive, builtins.resolve token = some kind.hash ↔
      Primitive.ofName? (TypeName.normalize token) = some kind) ∧
    (builtins.resolve token = some (.ofName TypeName.textType) ↔
      TypeName.normalize token = TypeName.textType) ∧
    (builtins.resolve token = none ↔
      Primitive.ofName? (TypeName.normalize token) = none ∧
        TypeName.normalize token ≠ TypeName.textType) ∧
    (∀ kind : Primitive, builtins.nameOf? kind.hash = some kind.name) ∧
    builtins.nameOf? (.ofName TypeName.textType) = some TypeName.textType := by
  have hprimitive : ∀ kind : Primitive, builtins.nameOf? kind.hash = some kind.name := by
    intro kind
    rw [nameOf?, get?_builtins]
    rfl
  have htext : builtins.nameOf? (.ofName TypeName.textType) = some TypeName.textType := by
    rw [nameOf?, get?_builtins_text]
    rfl
  rw [resolve]
  generalize TypeName.normalize token = name
  cases hspelling : Primitive.ofName? name with
  | some found =>
    have hname : name ≠ TypeName.textType := Primitive.ne_textType hspelling
    rw [find?_builtins (Primitive.ofName?_eq_some_iff.1 hspelling)]
    refine ⟨fun kind => ?_, ?_, ?_, hprimitive, htext⟩
    · rw [Option.some_inj, Option.some_inj, Primitive.hash_inj]
    · rw [Option.some_inj]
      exact iff_of_false found.hash_ne_text hname
    · exact iff_of_false nofun fun h => nomatch h.1
  | none =>
    by_cases hname : name = TypeName.textType
    · rw [hname, find?_builtins_text]
      refine ⟨fun kind => ?_, iff_of_true rfl rfl, iff_of_false nofun fun h => h.2 rfl, hprimitive,
        htext⟩
      exact iff_of_false (fun h => kind.hash_ne_text (Option.some.inj h).symm) nofun
    · rw [find?_builtins_of_other hspelling hname]
      exact ⟨fun kind => iff_of_false nofun nofun, iff_of_false nofun hname,
        iff_of_true rfl ⟨rfl, hname⟩, hprimitive, htext⟩

end TypeTable

end ClassBindings
