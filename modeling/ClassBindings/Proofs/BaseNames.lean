import Mathlib.Data.List.DropRight
import ClassBindings.TypeTable
import ClassBindings.Override
import ClassBindings.Proofs.EditOutcome

/-! # Base names

Normalization drops the qualifiers of a written type one kind after the other, each once.  What is
left may have qualifiers again: the pointer of a constant pointer comes to light only when its
`const` is gone.  A name is `Bare` if it has none at either end, and the bare names are exactly
those that normalization leaves alone (`TypeName.normalize_eq_self_iff`).

The types of an override are normalized once when it is parsed and once more when they are looked
up, whereas a type that is looked up directly is normalized once.  The two agree on a written type
exactly if its normal form is bare (`TypeTable.parse_agrees_iff`). -/
namespace ClassBindings

/-! ## What removing text leaves -/

namespace Text

variable {cs : List Char} {p : Char → Bool}

theorem dropEndWhile_isPrefix (p : Char → Bool) (cs : List Char) : dropEndWhile p cs <+: cs :=
  List.rdropWhile_prefix p cs

theorem dropEndWhile_eq_self_iff : dropEndWhile p cs = cs ↔ ∀ c ∈ cs.getLast?, ¬p c := by
  refine List.rdropWhile_eq_self_iff.trans ⟨fun h c hc => ?_, fun h hne => ?_⟩
  · obtain ⟨hne, rfl⟩ := List.mem_getLast?_eq_getLast hc
    exact h hne
  · exact h _ (List.getLast?_eq_some_getLast hne)

/-- Nothing that goes is left at the end. -/
theorem getLast?_dropEndWhile (p : Char → Bool) (cs : List Char) :
    ∀ c ∈ (dropEndWhile p cs).getLast?, ¬p c :=
  dropEndWhile_eq_self_iff.1 (List.rdropWhile_idempotent p cs)

theorem trimStart_suffix (cs : List Char) : trimStart cs <:+ cs := List.dropWhile_suffix isBlank

theorem trim_sublist (cs : List Char) : (trim cs).Sublist cs :=
  (dropEndWhile_isPrefix _ _).sublist.trans (trimStart_suffix cs).sublist

theorem trimStart_eq_self (hhead : ∀ c ∈ cs.head?, ¬isBlank c) : trimStart cs = cs := by
  cases cs with
  | nil => rfl
  | cons c rest => exact List.dropWhile_cons_of_neg (hhead c rfl)

/-- A text has nothing to trim if no blank begins or ends it. -/
theorem trim_eq_self (hhead : ∀ c ∈ cs.head?, ¬isBlank c) (hlast : ∀ c ∈ cs.getLast?, ¬isBlank c) :
    trim cs = cs := by
  rw [trim, trimStart_eq_self hhead, dropEndWhile_eq_self_iff]
  exact hlast

/-- No blank begins a trimmed text. -/
theorem head?_trim (cs : List Char) : ∀ c ∈ (trim cs).head?, ¬isBlank c := by
  intro c hc
  obtain ⟨rest, hrest⟩ := dropEndWhile_isPrefix isBlank (trimStart cs)
  have hstart : (trimStart cs).head? = some c := by
    rw [← hrest, List.head?_append, ← trim, hc]
    rfl
  have hnot := List.head?_dropWhile_not isBlank cs
  rw [← trimStart, hstart] at hnot
  simp [hnot]

/-- No blank ends a trimmed text. -/
theorem getLast?_trim (cs : List Char) : ∀ c ∈ (trim cs).getLast?, ¬isBlank c :=
  getLast?_dropEndWhile isBlank (trimStart cs)

theorem stripStart?_eq_none_iff {start : List Char} :
    stripStart? start cs = none ↔ ¬start <+: cs := by
  rw [Option.eq_none_iff_forall_ne_some]
  refine not_exists.symm.trans (not_congr ⟨?_, ?_⟩)
  · rintro ⟨rest, hrest⟩
    exact ⟨rest, (stripStart?_eq_some_iff.1 hrest).symm⟩
  · rintro ⟨rest, hrest⟩
    exact ⟨rest, stripStart?_eq_some_iff.2 hrest.symm⟩

section Copies
variable {start ending : List Char}

theorem dropCopies_suffix (hne : start ≠ []) (cs : List Char) : dropCopies start hne cs <:+ cs := by
  fun_induction dropCopies start hne cs with
  | case1 cs rest hstrip ih =>
    rw [stripStart?_eq_some_iff.1 hstrip]
    exact ih.trans (List.suffix_append _ _)
  | case2 cs hstrip => exact List.suffix_rfl

/-- No copy is left. -/
theorem not_prefix_dropCopies (hne : start ≠ []) (cs : List Char) :
    ¬start <+: dropCopies start hne cs := by
  fun_induction dropCopies start hne cs with
  | case1 cs rest hstrip ih => exact ih
  | case2 cs hstrip => exact stripStart?_eq_none_iff.1 hstrip

theorem dropCopies_eq_self_iff (hne : start ≠ []) :
    dropCopies start hne cs = cs ↔ ¬start <+: cs := by
  refine ⟨fun h => h ▸ not_prefix_dropCopies hne cs, fun h => ?_⟩
  rw [dropCopies]
  split
  · rename_i rest hstrip
    exact absurd ⟨rest, (stripStart?_eq_some_iff.1 hstrip).symm⟩ h
  · rfl

theorem dropEndCopies_isPrefix (hne : ending ≠ []) (cs : List Char) :
    dropEndCopies ending hne cs <+: cs := by
  rw [← List.reverse_suffix, dropEndCopies, List.reverse_reverse]
  exact dropCopies_suffix _ _

theorem dropEndCopies_eq_self_iff (hne : ending ≠ []) :
    dropEndCopies ending hne cs = cs ↔ ¬ending <:+ cs := by
  rw [dropEndCopies, List.reverse_eq_iff, dropCopies_eq_self_iff, List.reverse_prefix]

end Copies

end Text

/-! ## Names without qualifiers -/

namespace TypeName

open Text

variable {name : List Char}

/-- The name has no qualifier and no blank at either end. -/
structure Bare (name : List Char) : Prop where
  head : ∀ c ∈ name.head?, ¬isBlank c
  last : ∀ c ∈ name.getLast?, ¬isBlank c
  no_declarator : ∀ c ∈ name.getLast?, ¬isDeclarator c
  no_leading_const : ¬constWord ++ [' '] <+: name
  no_trailing_const : ¬ ' ' :: constWord <:+ name

/-- What is asked of an end of a name, as a test of the one character there. -/
theorem all_not_iff {p : Char → Bool} {c? : Option Char} :
    c?.all (fun c => !p c) ↔ ∀ c ∈ c?, ¬p c := by
  cases c? <;> simp

instance (name : List Char) : Decidable (Bare name) :=
  decidable_of_iff
    (name.head?.all (fun c => !isBlank c) ∧ name.getLast?.all (fun c => !isBlank c) ∧
      name.getLast?.all (fun c => !isDeclarator c) ∧ ¬constWord ++ [' '] <+: name ∧
      ¬ ' ' :: constWord <:+ name)
    (by
      simp only [all_not_iff]
      exact ⟨fun ⟨h₁, h₂, h₃, h₄, h₅⟩ => ⟨h₁, h₂, h₃, h₄, h₅⟩,
        fun ⟨h₁, h₂, h₃, h₄, h₅⟩ => ⟨h₁, h₂, h₃, h₄, h₅⟩⟩)

theorem dropLeadingConst_eq_self_iff :
    dropLeadingConst name = name ↔ ¬constWord ++ [' '] <+: name := by
  rw [dropLeadingConst]
  cases hstrip : stripStart? (constWord ++ [' ']) name with
  | none => exact ⟨fun _ => stripStart?_eq_none_iff.1 hstrip, fun _ => rfl⟩
  | some rest =>
    have hname := stripStart?_eq_some_iff.1 hstrip
    refine ⟨fun (h : trimStart rest = name) => ?_, fun h => absurd ⟨rest, hname.symm⟩ h⟩
    -- What follows the word is shorter than the name.
    have hle := (trimStart_suffix rest).length_le
    rw [h, hname, List.length_append] at hle
    exact absurd hle (by simp [constWord])

theorem dropLeadingConst_suffix (name : List Char) : dropLeadingConst name <:+ name := by
  rw [dropLeadingConst]
  cases hstrip : stripStart? (constWord ++ [' ']) name with
  | none => exact List.suffix_rfl
  | some rest =>
    rw [stripStart?_eq_some_iff.1 hstrip]
    exact (trimStart_suffix rest).trans (List.suffix_append _ _)

/-- A name that no declarator ends is no pointer. -/
theorem isPointer_eq_false (h : ∀ c ∈ name.getLast?, ¬isDeclarator c) : isPointer name = false := by
  have hkeep : dropEndWhile (fun c => c = '&' || c = ' ') name = name := by
    refine dropEndWhile_eq_self_iff.2 fun c hc href => h c hc ?_
    rcases (by simpa using href : c = '&' ∨ c = ' ') with rfl | rfl <;> decide
  rw [isPointer, hkeep, decide_eq_false_iff_not]
  exact fun hstar => h '*' hstar (by decide)

/-- A bare name is its own normal form. -/
theorem Bare.normalizeChars (h : Bare name) : normalizeChars name = name := by
  have htrim : trim name = name := trim_eq_self h.head h.last
  have hlead : dropLeadingConst name = name := dropLeadingConst_eq_self_iff.2 h.no_leading_const
  have hdeclarator := dropEndWhile_eq_self_iff.2 h.no_declarator
  have htrailing := (dropEndCopies_eq_self_iff (by simp)).2 h.no_trailing_const
  have hbase : dropQualifiers name = name := by rw [dropQualifiers, hdeclarator, htrailing, htrim]
  simp only [TypeName.normalizeChars, htrim, hlead, hbase, isPointer_eq_false h.no_declarator,
    Bool.false_and, Bool.false_eq_true, if_false]

theorem dropQualifiers_sublist (name : List Char) : (dropQualifiers name).Sublist name :=
  ((trim_sublist _).trans (dropEndCopies_isPrefix _ _).sublist).trans
    (dropEndWhile_isPrefix _ _).sublist

/-- What keeps all of its end has no qualifier there. -/
theorem no_qualifier_of_eq_self (h : dropQualifiers name = name) :
    (∀ c ∈ name.getLast?, ¬isDeclarator c) ∧ ¬ ' ' :: constWord <:+ name := by
  have hne : ' ' :: constWord ≠ [] := by simp
  have hplain := (dropEndWhile_isPrefix isDeclarator name).sublist
  have hcut := (dropEndCopies_isPrefix hne (dropEndWhile isDeclarator name)).sublist
  have hall : name.Sublist (dropEndCopies _ hne (dropEndWhile isDeclarator name)) := by
    nth_rewrite 1 [← h]
    exact trim_sublist _
  have hself : dropEndWhile isDeclarator name = name := hplain.antisymm (hall.trans hcut)
  rw [hself] at hcut hall
  exact ⟨dropEndWhile_eq_self_iff.1 hself,
    (dropEndCopies_eq_self_iff hne).1 (hcut.antisymm hall)⟩

/-- **The names that normalization leaves alone are the bare ones.** -/
theorem normalizeChars_eq_self_iff : normalizeChars name = name ↔ Bare name := by
  refine ⟨fun h => ?_, Bare.normalizeChars⟩
  simp only [normalizeChars] at h
  split at h
  · rw [← h]
    decide
  · have hlead := (dropLeadingConst_suffix (trim name)).sublist
    -- All of the name is left in the end, so no step on the way has taken anything off it.
    have hall : name.Sublist (dropLeadingConst (trim name)) := by
      nth_rewrite 1 [← h]
      exact dropQualifiers_sublist _
    have htrim : trim name = name := (trim_sublist name).antisymm (hall.trans hlead)
    rw [htrim] at h hlead hall
    have hself : dropLeadingConst name = name := hlead.antisymm hall
    rw [hself] at h
    obtain ⟨hdeclarator, htrailing⟩ := no_qualifier_of_eq_self h
    exact {
      head := htrim ▸ head?_trim name
      last := htrim ▸ getLast?_trim name
      no_declarator := hdeclarator
      no_leading_const := dropLeadingConst_eq_self_iff.1 hself
      no_trailing_const := htrailing }

/-- The name has no qualifier and no blank at either end. -/
def IsBare (name : String) : Prop := Bare name.toList

instance (name : String) : Decidable (IsBare name) := inferInstanceAs (Decidable (Bare name.toList))

theorem normalize_eq_self_iff {name : String} : normalize name = name ↔ IsBare name := by
  rw [IsBare, ← normalizeChars_eq_self_iff, normalize, ← String.toList_inj, String.toList_ofList]

end TypeName

/-! ## Parsing and looking up -/

namespace Override

/-- The override of this method by one written type is parsed, and the type has this identity. -/
def ParsesTo (resolve : String → Option TypeHash) (name token : String) (hash : TypeHash) : Prop :=
  parse resolve { name, signature := [token] } =
    .ok () { name, signature := [token], types? := some [hash] }

/-- **A token is normalized before it is resolved.** -/
theorem parsesTo_iff {resolve : String → Option TypeHash} {name token : String} {hash : TypeHash} :
    ParsesTo resolve name token hash ↔ resolve (TypeName.normalize token) = some hash := by
  rw [ParsesTo, parse, Edit.bind_get]
  cases h : resolve (TypeName.normalize token) with
  | none => simp [resolved, isParsed, signatureTypes, h, Except.map, Edit.throw_apply]
  | some found => simp [resolved, isParsed, signatureTypes, h, Except.map, Edit.set_apply]

end Override

namespace TypeTable

/-- The table that holds this type and nothing else. -/
def single (entry : TypeEntry) : TypeTable := empty.insert entry

/-- **A new name is found under each spelling of which it is the normal form**, and nothing else
becomes of it. -/
theorem resolve_of_names {table later : TypeTable} {name : String} {hash : TypeHash}
    (h : later.names = table.names.insert name hash) (token : String) :
    later.resolve token =
      if TypeName.normalize token = name then some hash else table.resolve token := by
  rw [resolve, h, Dictionary.find?_insert, resolve]

theorem resolve_single (entry : TypeEntry) (token : String) :
    (single entry).resolve token =
      if TypeName.normalize token = entry.name then some entry.hash else none := by
  have hempty : empty.resolve token = none := rfl
  rw [← hempty]
  exact resolve_of_names rfl token

/-- **Parsing and looking up agree on the written types whose normal form is bare.**  Parsing looks
the normal form of a written type up, which is normalized again on the way.  So parsing yields what
looking the written type up yields, in every table, exactly if normalizing it twice comes to the
same as normalizing it once, and that is exactly if no qualifier is left the first time. -/
theorem parse_agrees_iff (token : String) :
    (∀ (table : TypeTable) name hash, Override.ParsesTo table.resolve name token hash ↔
      table.resolve (TypeName.normalize token) = some hash) ∧
    ((∀ (table : TypeTable) name hash, Override.ParsesTo table.resolve name token hash ↔
      table.resolve token = some hash) ↔
        TypeName.normalize (TypeName.normalize token) = TypeName.normalize token) ∧
    (TypeName.normalize (TypeName.normalize token) = TypeName.normalize token ↔
      TypeName.IsBare (TypeName.normalize token)) := by
  refine ⟨fun _ _ _ => Override.parsesTo_iff, ⟨fun h => ?_, fun h table name hash => ?_⟩,
    TypeName.normalize_eq_self_iff⟩
  · -- A table that knows the normal form and nothing else tells the two apart.
    have hfound : (single (.ofName (TypeName.normalize token) .text)).resolve token =
        some (.ofName (TypeName.normalize token)) := by
      rw [resolve_single]
      exact if_pos rfl
    have hparsed := (h _ "" _).2 hfound
    rw [Override.parsesTo_iff, resolve_single] at hparsed
    split at hparsed
    · rename_i hsame
      exact hsame
    · cases hparsed
  · rw [Override.parsesTo_iff, resolve, resolve, h]

/-- **A constant pointer is parsed and not found.**  Its `const` hides the pointer from the first
normalization, so the two ways to its type do not agree. -/
theorem parse_constant_pointer :
    TypeName.normalize "int* const" = "int*" ∧ TypeName.normalize "int*" = "int" ∧
      Override.ParsesTo builtins.resolve "Foo" "int* const" Primitive.int32.hash ∧
      builtins.resolve "int* const" = none ∧
      ¬∀ (table : TypeTable) token name hash, Override.ParsesTo table.resolve name token hash ↔
        table.resolve token = some hash := by
  have hparsed : Override.ParsesTo builtins.resolve "Foo" "int* const" Primitive.int32.hash :=
    Override.parsesTo_iff.2 (by decide +kernel)
  have hunknown : builtins.resolve "int* const" = none := by decide +kernel
  refine ⟨by decide +kernel, by decide +kernel, hparsed, hunknown, fun h => ?_⟩
  have hfound := (h builtins "int* const" "Foo" _).1 hparsed
  rw [hunknown] at hfound
  cases hfound

end TypeTable

end ClassBindings
