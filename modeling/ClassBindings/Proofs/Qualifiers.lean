import ClassBindings.Proofs.BaseNames

/-! # Qualifiers around a base name

A type is written as a base name with `Qualifiers` around it: one `const` before it, any number of
them after it, references and pointers at the end, and blanks in between.  Normalization takes the
qualifiers off in five steps, each of which looks at one end of what the last one has left, so each
must stop exactly where the next one is to begin.  They do stop there for every name that has
nothing of a qualifier itself (`IsBaseName`), and the name comes out again
(`TypeName.normalize_around`).

The base name is `char` in one case that counts: with a pointer it is text. -/
namespace ClassBindings

/-! ## What removing text leaves of an appended one -/

namespace Text

variable {cs ds : List Char} {p : Char → Bool}

/-- Nothing is dropped from before a character that stays. -/
theorem dropEndWhile_append (hlast : ∀ c ∈ cs.getLast?, ¬p c) (ds : List Char) :
    dropEndWhile p (cs ++ ds) = cs ++ dropEndWhile p ds := by
  induction ds using List.reverseRecOn with
  | nil =>
    rw [List.append_nil, dropEndWhile_eq_self_iff.2 hlast]
    exact (List.append_nil cs).symm
  | append_singleton ds d ih =>
    rw [← List.append_assoc]
    by_cases hd : p d
    · have hdrop := List.rdropWhile_concat_pos p ds d hd
      have hdrop' := List.rdropWhile_concat_pos p (cs ++ ds) d hd
      exact hdrop'.trans (ih.trans (congrArg (cs ++ ·) hdrop.symm))
    · have hkeep := List.rdropWhile_concat_neg p ds d hd
      have hkeep' := List.rdropWhile_concat_neg p (cs ++ ds) d hd
      refine hkeep'.trans ?_
      rw [List.append_assoc]
      exact congrArg (cs ++ ·) hkeep.symm

theorem dropEndWhile_eq_nil (h : ∀ c ∈ cs, p c) : dropEndWhile p cs = [] :=
  List.rdropWhile_eq_nil_iff.2 h

/-- An ending that goes leaves what was before it to go as well. -/
theorem dropEndWhile_append_of_all (h : ∀ d ∈ ds, p d) (cs : List Char) :
    dropEndWhile p (cs ++ ds) = dropEndWhile p cs := by
  rw [dropEndWhile, List.reverse_append,
    List.dropWhile_append_of_pos fun d hd => h d (List.mem_reverse.1 hd)]
  rfl

/-- A character that does not go one by one is kept wherever it is. -/
theorem mem_dropEndWhile_iff {c : Char} (hc : ¬p c) : c ∈ dropEndWhile p cs ↔ c ∈ cs := by
  refine ⟨fun h => (dropEndWhile_isPrefix p cs).subset h, fun h => ?_⟩
  have hsplit : dropEndWhile p cs ++ cs.rtakeWhile p = cs := List.rdropWhile_append_rtakeWhile
  rw [← hsplit, List.mem_append] at h
  rcases h with h | h
  · exact h
  · exact absurd (List.mem_rtakeWhile_imp h) hc

theorem trim_append {before : List Char} (hbefore : ∀ c ∈ before, isBlank c)
    (hne : cs ≠ []) (hhead : ∀ c ∈ cs.head?, ¬isBlank c) (hlast : ∀ c ∈ cs.getLast?, ¬isBlank c)
    (ds : List Char) : trim (before ++ (cs ++ ds)) = cs ++ dropEndWhile isBlank ds := by
  have hstart : trimStart (before ++ (cs ++ ds)) = trimStart (cs ++ ds) :=
    List.dropWhile_append_of_pos hbefore
  have hself : trimStart (cs ++ ds) = cs ++ ds := by
    refine trimStart_eq_self ?_
    rwa [List.head?_append_of_ne_nil _ hne]
  rw [trim, hstart, hself, dropEndWhile_append hlast]

section Copies
variable {ending : List Char} (hne : ending ≠ [])

theorem dropEndCopies_append (cs : List Char) :
    dropEndCopies ending hne (cs ++ ending) = dropEndCopies ending hne cs := by
  rw [dropEndCopies, List.reverse_append, dropCopies, stripStart?_append]
  rfl

theorem dropEndCopies_append_replicate (cs : List Char) (n : Nat) :
    dropEndCopies ending hne (cs ++ (List.replicate n ending).flatten) =
      dropEndCopies ending hne cs := by
  induction n with
  | zero => rw [List.replicate_zero, List.flatten_nil, List.append_nil]
  | succ n ih =>
    rw [List.replicate_succ', List.flatten_append, List.flatten_singleton, ← List.append_assoc,
      dropEndCopies_append, ih]

end Copies

end Text

namespace TypeName

open Text

/-! ## Qualifiers -/

/-- That many `const`s, each after a blank. -/
def trailingConsts (n : Nat) : List Char := (List.replicate n (' ' :: constWord)).flatten

/-- What may be written around a base name. -/
structure Qualifiers where
  /-- The blanks before all of it. -/
  before : List Char
  /-- The blanks after the `const` before the name, if there is one. -/
  leading : Option (List Char)
  /-- The number of `const`s after the name. -/
  trailing : Nat
  /-- The references, the pointers and the blanks between them. -/
  declarators : List Char
  /-- The blanks after all of it. -/
  after : List Char
  blank_before : ∀ c ∈ before, isBlank c
  blank_leading : ∀ blanks ∈ leading, ∀ c ∈ blanks, isBlank c
  declarator : ∀ c ∈ declarators, isDeclarator c
  blank_after : ∀ c ∈ after, isBlank c

namespace Qualifiers

/-- The `const` before the name. -/
def lead (q : Qualifiers) : List Char :=
  match q.leading with
  | some blanks => constWord ++ [' '] ++ blanks
  | none => []

/-- The type with this base name and these qualifiers, as it is written. -/
def around (q : Qualifiers) (name : List Char) : List Char :=
  q.before ++ q.lead ++ name ++ trailingConsts q.trailing ++ q.declarators ++ q.after

/-- What is left of the end once it is trimmed. -/
def trimmedEnd (q : Qualifiers) : List Char := dropEndWhile isBlank (q.declarators ++ q.after)

end Qualifiers

/-- The name is no qualifier, has none at either end, and no blank there. -/
structure IsBaseName (name : List Char) : Prop where
  nonempty : name ≠ []
  bare : Bare name
  not_const : name ≠ constWord

instance (name : List Char) : Decidable (IsBaseName name) :=
  decidable_of_iff (name ≠ [] ∧ Bare name ∧ name ≠ constWord)
    ⟨fun ⟨h₁, h₂, h₃⟩ => ⟨h₁, h₂, h₃⟩, fun h => ⟨h.nonempty, h.bare, h.not_const⟩⟩

variable {name ending : List Char} {q : Qualifiers}

/-! ## The ends of a name -/

/-- With `const`s after it, a name ends in a letter of the last one; else it ends as it does. -/
theorem getLast?_trailingConsts (n : Nat) :
    ∀ c ∈ (name ++ trailingConsts n).getLast?, c = 't' ∨ c ∈ name.getLast? := by
  intro c hc
  rw [trailingConsts] at hc
  cases n with
  | zero =>
    rw [List.replicate_zero, List.flatten_nil, List.append_nil] at hc
    exact Or.inr hc
  | succ n =>
    rw [List.replicate_succ', List.flatten_append, List.flatten_singleton, ← List.append_assoc,
      List.getLast?_append_of_ne_nil _ (by simp)] at hc
    exact Or.inl (Option.some.inj hc).symm

section
variable (h : IsBaseName name)
include h

theorem IsBaseName.head (n : Nat) : ∀ c ∈ (name ++ trailingConsts n).head?, ¬isBlank c := by
  rw [List.head?_append_of_ne_nil _ h.nonempty]
  exact h.bare.head

theorem IsBaseName.last (n : Nat) :
    ∀ c ∈ (name ++ trailingConsts n).getLast?, ¬isBlank c ∧ ¬isDeclarator c := by
  intro c hc
  rcases getLast?_trailingConsts n c hc with rfl | hname
  · decide
  · exact ⟨h.bare.last c hname, h.bare.no_declarator c hname⟩

/-- What follows a base name makes no leading `const` of it. -/
theorem IsBaseName.no_leading_const (hending : ∀ c ∈ ending.head?, isDeclarator c) :
    ¬constWord ++ [' '] <+: name ++ ending := by
  intro hlead
  rcases List.prefix_or_prefix_of_prefix hlead (List.prefix_append name ending) with hname | hname
  · exact h.bare.no_leading_const hname
  -- The name is a beginning of the word, and a declarator comes right after it.
  obtain ⟨rest, hrest⟩ := hname
  rw [← hrest, List.prefix_append_right_inj] at hlead
  cases rest with
  | nil => exact h.bare.no_leading_const ⟨[], by rw [List.append_nil, ← hrest, List.append_nil]⟩
  | cons d rest =>
    obtain ⟨later, rfl⟩ := hlead
    have hd : isDeclarator d := hending d rfl
    rcases List.append_eq_append_iff.1 hrest with ⟨more, hword, hmore⟩ | ⟨more, hname, hmore⟩
    · cases more with
      | nil => exact h.not_const (by rw [hword, List.append_nil])
      | cons letter more =>
        obtain ⟨rfl, -⟩ := List.cons.inj hmore
        have hletters : constWord.all (!isDeclarator ·) := by decide
        have hletter := List.all_eq_true.1 hletters d (by rw [hword]; simp)
        rw [hd] at hletter
        cases hletter
    · cases more with
      | nil => exact h.not_const (by rw [hname, List.append_nil])
      | cons letter more => cases more <;> cases hmore

end

/-! ## One step of normalization after the other -/

theorem Qualifiers.declarator_trimmedEnd (q : Qualifiers) : ∀ c ∈ q.trimmedEnd, isDeclarator c := by
  intro c hc
  -- The blanks at the end go, and what is left of the declarators is before them.
  have hend : q.trimmedEnd = dropEndWhile isBlank q.declarators :=
    dropEndWhile_append_of_all q.blank_after q.declarators
  rw [hend] at hc
  exact q.declarator c ((dropEndWhile_isPrefix isBlank q.declarators).subset hc)

theorem Qualifiers.star_mem_trimmedEnd (q : Qualifiers) :
    '*' ∈ q.trimmedEnd ↔ '*' ∈ q.declarators := by
  have hstar : ¬isBlank '*' := by decide
  rw [trimmedEnd, mem_dropEndWhile_iff hstar, List.mem_append]
  exact or_iff_left fun hafter => hstar (q.blank_after _ hafter)

theorem trim_around (h : IsBaseName name) (q : Qualifiers) :
    trim (q.around name) = q.lead ++ (name ++ trailingConsts q.trailing ++ q.trimmedEnd) := by
  have hcore : name ++ trailingConsts q.trailing ≠ [] :=
    List.append_ne_nil_of_left_ne_nil h.nonempty _
  have hhead : ∀ c ∈ (q.lead ++ (name ++ trailingConsts q.trailing)).head?, ¬isBlank c := by
    intro c hc
    rw [Qualifiers.lead] at hc
    cases hlead : q.leading with
    | none =>
      rw [hlead] at hc
      exact h.head q.trailing c hc
    | some blanks =>
      rw [hlead] at hc
      obtain rfl := Option.some.inj hc
      decide
  have hlast : ∀ c ∈ (q.lead ++ (name ++ trailingConsts q.trailing)).getLast?, ¬isBlank c := by
    intro c hc
    rw [List.getLast?_append_of_ne_nil _ hcore] at hc
    exact (h.last q.trailing c hc).1
  have hne : q.lead ++ (name ++ trailingConsts q.trailing) ≠ [] :=
    List.append_ne_nil_of_right_ne_nil _ hcore
  have htrim := trim_append q.blank_before hne hhead hlast (q.declarators ++ q.after)
  rw [← Qualifiers.trimmedEnd] at htrim
  simpa only [Qualifiers.around, List.append_assoc] using htrim

theorem dropLeadingConst_lead (h : IsBaseName name) (q : Qualifiers) (n : Nat) :
    dropLeadingConst (q.lead ++ (name ++ trailingConsts n ++ q.trimmedEnd)) =
      name ++ trailingConsts n ++ q.trimmedEnd := by
  have hstart : ∀ c ∈ (name ++ trailingConsts n ++ q.trimmedEnd).head?, ¬isBlank c := by
    rw [List.append_assoc, List.head?_append_of_ne_nil _ h.nonempty]
    exact h.bare.head
  rw [Qualifiers.lead]
  cases hlead : q.leading with
  | some blanks =>
    rw [dropLeadingConst]
    dsimp only
    rw [List.append_assoc (constWord ++ [' ']), stripStart?_append]
    dsimp only
    rw [trimStart, List.dropWhile_append_of_pos (q.blank_leading blanks hlead), ← trimStart,
      trimStart_eq_self hstart]
  | none =>
    rw [List.nil_append, List.append_assoc, dropLeadingConst_eq_self_iff]
    refine h.no_leading_const fun c hc => ?_
    cases n with
    | zero => exact q.declarator_trimmedEnd c (List.mem_of_mem_head? hc)
    | succ n =>
      obtain rfl := Option.some.inj hc
      decide

/-- A pointer is seen behind a name and its `const`s, between references or blanks as it may be. -/
theorem isPointer_append (h : IsBaseName name) (n : Nat) (hending : ∀ c ∈ ending, isDeclarator c) :
    isPointer (name ++ trailingConsts n ++ ending) ↔ '*' ∈ ending := by
  have hdeclarator : ∀ c : Char, isDeclarator c ↔ (c = '&' || c = ' ') ∨ c = '*' := by
    intro c
    simp only [isDeclarator, Bool.or_eq_true, decide_eq_true_eq]
    tauto
  have hplain : ∀ c ∈ (name ++ trailingConsts n).getLast?, ¬(c = '&' || c = ' ') :=
    fun c hc href => (h.last n c hc).2 ((hdeclarator c).2 (Or.inl href))
  rw [isPointer, dropEndWhile_append hplain, decide_eq_true_iff]
  constructor
  · intro hpointer
    by_contra hstar
    -- Without a pointer all of the ending goes, and the name or a `const` comes last.
    have hgone : ∀ c ∈ ending, c = '&' || c = ' ' := fun c hc =>
      ((hdeclarator c).1 (hending c hc)).resolve_right fun hc' => hstar (hc' ▸ hc)
    rw [dropEndWhile_eq_nil hgone, List.append_nil] at hpointer
    exact (h.last n _ hpointer).2 (by decide)
  · intro hstar
    have hkept : '*' ∈ dropEndWhile (fun c => c = '&' || c = ' ') ending :=
      (mem_dropEndWhile_iff (by decide)).2 hstar
    have hne := List.ne_nil_of_mem hkept
    have hlast := List.getLast?_eq_some_getLast hne
    rw [List.getLast?_append_of_ne_nil _ hne, hlast, Option.some_inj]
    have hmem := (dropEndWhile_isPrefix _ ending).subset (List.getLast_mem hne)
    exact ((hdeclarator _).1 (hending _ hmem)).resolve_left (getLast?_dropEndWhile _ _ _ hlast)

theorem dropQualifiers_append (h : IsBaseName name) (n : Nat)
    (hending : ∀ c ∈ ending, isDeclarator c) :
    dropQualifiers (name ++ trailingConsts n ++ ending) = name := by
  have hdeclarators := dropEndWhile_append (fun c hc => (h.last n c hc).2) ending
  rw [dropQualifiers, hdeclarators, dropEndWhile_eq_nil hending, List.append_nil, trailingConsts,
    dropEndCopies_append_replicate, (dropEndCopies_eq_self_iff _).2 h.bare.no_trailing_const]
  exact trim_eq_self h.bare.head h.bare.last

/-- **Normalization recovers the base name from whatever qualifiers are written around it**, and a
pointer to `char` is text. -/
theorem normalize_around {name : String} (h : IsBaseName name.toList) (q : Qualifiers) :
    normalize (String.ofList (q.around name.toList)) =
      if name = "char" ∧ '*' ∈ q.declarators then textType else name := by
  have hpointer := (isPointer_append h q.trailing q.declarator_trimmedEnd).trans
    q.star_mem_trimmedEnd
  have hchar : name.toList = ['c', 'h', 'a', 'r'] ↔ name = "char" := by
    rw [← String.toList_inj]
    rfl
  rw [normalize, String.toList_ofList, normalizeChars, trim_around h, dropLeadingConst_lead h,
    dropQualifiers_append h _ q.declarator_trimmedEnd]
  simp only [Bool.and_eq_true, decide_eq_true_eq, hpointer, hchar]
  by_cases hc : name = "char" ∧ '*' ∈ q.declarators
  · rw [if_pos hc, if_pos hc.symm]
    rfl
  · rw [if_neg hc, if_neg fun hc' => hc hc'.symm, String.ofList_toList]

/-- A `const` on both sides, pointers behind a reference, and blanks of several kinds. -/
def constantPointers : Qualifiers where
  before := [' ', '\u00a0']
  leading := some ['\t', ' ']
  trailing := 2
  declarators := ['&', ' ', '*', '*', ' ', '&']
  after := ['\n']
  blank_before := List.all_eq_true.1 (by decide +kernel)
  blank_leading := by
    rintro blanks ⟨⟩
    exact List.all_eq_true.1 (by decide +kernel)
  declarator := List.all_eq_true.1 (by decide +kernel)
  blank_after := List.all_eq_true.1 (by decide +kernel)

/-- A constant reference. -/
def constantReference : Qualifiers where
  before := []
  leading := none
  trailing := 1
  declarators := [' ', '&']
  after := []
  blank_before := nofun
  blank_leading := nofun
  declarator := List.all_eq_true.1 (by decide)
  blank_after := nofun

/-- Pointers to `char` are text and a reference to one is not; `constant` has no `const` in it. -/
theorem normalize_around_char :
    String.ofList (constantPointers.around "char".toList) =
        " \u00a0const \t char const const& ** &\n" ∧
      normalize " \u00a0const \t char const const& ** &\n" = textType ∧
      normalize "char const &" = "char" ∧
      normalize " \u00a0const \t constant const const& ** &\n" = "constant" := by
  have hchar : IsBaseName "char".toList := by decide +kernel
  have hconstant : IsBaseName "constant".toList := by decide +kernel
  have hstar : '*' ∈ constantPointers.declarators := by decide
  have hnostar : '*' ∉ constantReference.declarators := by decide
  have hpointers := normalize_around hchar constantPointers
  have hreference := normalize_around hchar constantReference
  have hother := normalize_around hconstant constantPointers
  rw [if_pos ⟨rfl, hstar⟩] at hpointers
  rw [if_neg fun h => hnostar h.2] at hreference
  rw [if_neg fun h => absurd h.1 (by decide)] at hother
  exact ⟨rfl, hpointers, hreference, hother⟩

end TypeName

end ClassBindings
