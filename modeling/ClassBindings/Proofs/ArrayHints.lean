import ClassBindings.Proofs.Coherence

/-! # Array hints

A hint that instances travel as numbers names the type of a number.  The name is checked without the
blanks around it, but it is stored as it was written, and where it is read again nobody takes the
blanks off (`setNumberArray_eq_ok_iff`).

So what every class keeps, entries exchanged between packages included, is that its hint, trimmed,
names a numeric primitive (`NativeClass.HintsNumber`).  The stored text itself names one exactly if it was written
without blanks around it, for no name of a primitive has any (`Primitive.isNumber_iff_trimmed`).  A
hint written with blanks is accepted and names nothing (`array_hint_untrimmed`). -/
namespace ClassBindings

/-- The text without the blanks around it. -/
def Text.trimmed (s : String) : String := String.ofList (Text.trim s.toList)

namespace Primitive

variable {name : String} {kind : Primitive}

/-- The name is the canonical one or a native spelling of a numeric primitive. -/
def IsNumber (name : String) : Prop := ∃ kind, ofName? name = some kind ∧ kind.isNumeric

theorem any_isNumeric_iff : (ofName? name).any (·.isNumeric) ↔ IsNumber name := by
  rw [Option.any_eq_true, IsNumber]

instance (name : String) : Decidable (IsNumber name) := decidable_of_iff _ any_isNumeric_iff

/-- No blank begins or ends a name of a primitive. -/
theorem trimmed_of_ofName? (h : ofName? name = some kind) : Text.trimmed name = name := by
  have hspellings : ∀ kind ∈ all, ∀ spelling ∈ kind.name :: kind.aliases,
      Text.trimmed spelling = spelling := by decide +kernel
  have hname : name ∈ kind.name :: kind.aliases := by
    have hfound := List.find?_some h
    simp only [Bool.or_eq_true, decide_eq_true_eq, List.contains_iff_mem] at hfound
    rcases hfound with rfl | halias
    · exact List.mem_cons_self
    · exact List.mem_cons_of_mem _ halias
  exact hspellings kind (mem_all kind) name hname

/-- **A text that names a number once it is trimmed names one as it is exactly if there was nothing
to trim.** -/
theorem isNumber_iff_trimmed (h : IsNumber (Text.trimmed name)) :
    IsNumber name ↔ Text.trimmed name = name := by
  constructor
  · rintro ⟨kind, hkind, _⟩
    exact trimmed_of_ofName? hkind
  · intro hsame
    rwa [hsame] at h

theorem not_isNumber_empty : ¬IsNumber "" := by decide

end Primitive

/-- The hint of this many numbers of this type; none of no numbers. -/
def ArrayHint.ofElements (elements : Nat) (elementType : String) : Option ArrayHint :=
  if h : 0 < elements then some ⟨elements, elementType, h⟩ else none

namespace NativeClass

variable {c d : NativeClass} {elements : Nat} {elementType : String} {hint : Option ArrayHint}

/-- **A hint is made exactly if it clears the old one or its type, trimmed, is a number**, and then
of the type as it is written. -/
theorem makeArrayHint_eq_ok_iff : c.makeArrayHint elements elementType = .ok hint ↔
    (elements = 0 ∨ Primitive.IsNumber (Text.trimmed elementType)) ∧
      hint = ArrayHint.ofElements elements elementType := by
  rw [makeArrayHint, ArrayHint.ofElements]
  by_cases hpos : 0 < elements
  · have hne : elements ≠ 0 := by omega
    simp only [hpos, dif_pos, hne, false_or]
    by_cases hempty : (Text.trim elementType.toList).isEmpty
    · have hnot : ¬Primitive.IsNumber (Text.trimmed elementType) := by
        rw [Text.trimmed, List.isEmpty_iff.1 hempty]
        exact Primitive.not_isNumber_empty
      simp [hempty, hnot]
    · by_cases hnumber : Primitive.IsNumber (Text.trimmed elementType)
      · have hany := Primitive.any_isNumeric_iff.2 hnumber
        rw [Text.trimmed] at hany
        simp [hempty, hany, hnumber, eq_comm]
      · have hany := mt Primitive.any_isNumeric_iff.1 hnumber
        rw [Text.trimmed] at hany
        simp [hempty, hany, hnumber]
  · have hzero : elements = 0 := by omega
    simp [hzero, eq_comm]

/-- **What setting a hint writes**: the type as it is written. -/
theorem setNumberArray_eq_ok_iff : setNumberArray elements elementType c = .ok () d ↔
    c.phase = .declared ∧ (elements = 0 ∨ Primitive.IsNumber (Text.trimmed elementType)) ∧
      d = { c with arrayHint := ArrayHint.ofElements elements elementType } := by
  simp only [setNumberArray, Edit.bind_get, Edit.bind_check_eq_ok_iff, checkDeclared_eq_ok_iff,
    makeArrayHint_eq_ok_iff, Edit.set_apply, exists_const]
  constructor
  · rintro ⟨hphase, hint, ⟨hnumber, rfl⟩, h⟩
    cases h
    exact ⟨hphase, hnumber, rfl⟩
  · rintro ⟨hphase, hnumber, rfl⟩
    exact ⟨hphase, _, ⟨hnumber, rfl⟩, rfl⟩

theorem atomic_setNumberArray (elements : Nat) (elementType : String) :
    Edit.Atomic (setNumberArray elements elementType) :=
  .bind_get fun _ => .bind_check fun _ => .bind_check fun _ => .set _

/-- The type of the hint, trimmed, is a number. -/
def HintsNumber (c : NativeClass) : Prop :=
  ∀ hint, c.arrayHint = some hint → Primitive.IsNumber (Text.trimmed hint.elementType)

theorem hintsNumber_congr (h : d.arrayHint = c.arrayHint) (hc : c.HintsNumber) :
    d.HintsNumber := by
  intro hint hhint
  exact hc hint (h.symm.trans hhint)

theorem hintsNumber_ofElements (h : elements = 0 ∨ Primitive.IsNumber (Text.trimmed elementType))
    (c : NativeClass) :
    HintsNumber { c with arrayHint := ArrayHint.ofElements elements elementType } := by
  intro hint hhint
  simp only [ArrayHint.ofElements] at hhint
  split at hhint
  · rename_i hpos
    cases hhint
    rcases h with hzero | hnumber
    · omega
    · exact hnumber
  · cases hhint

end NativeClass

namespace Package

variable {p q : Package} {id : ClassId} {c : NativeClass}

/-- **Every effect on a class keeps its hint a number.** -/
theorem kept_hintsNumber : Kept fun _ => NativeClass.HintsNumber where
  register _ _ _ _ _ h := nomatch h
  declare _ c d _ hd hc := by
    cases hd with
    | arrayHint h =>
      obtain ⟨hnumber, rfl⟩ := NativeClass.makeArrayHint_eq_ok_iff.1 h
      exact NativeClass.hintsNumber_ofElements hnumber c
    | _ => exact NativeClass.hintsNumber_congr rfl hc
  rebase _ _ _ _ hc := NativeClass.hintsNumber_congr rfl hc
  attach _ _ _ _ _ _ _ hc := NativeClass.hintsNumber_congr rfl hc
  advance _ _ c d hd hc := by
    cases hd with
    | preprocess _ => exact NativeClass.hintsNumber_congr rfl hc
    | process _ _ _ => exact NativeClass.hintsNumber_congr rfl hc
    | postprocess _ => exact NativeClass.hintsNumber_congr rfl hc

/-- **Hints name numbers, up to blanks.**  In a package with any history, in which entries may have
been exchanged with other packages, the type of an array hint, trimmed, is the canonical name or a
native spelling of a numeric primitive; the type as it is stored is one exactly if there is nothing
to trim; and a class without array elements has no type for them.
Setting a hint is carried out exactly if the class is still declared and the hint is cleared or its
type, trimmed, is a number; it stores the type as it is written and changes nothing else, and where
it is refused it leaves the package as it was. -/
theorem Attainable.array_hint_number (h : p.Attainable) :
    (∀ id c, p.class? id = some c →
      (0 < c.arrayElements → Primitive.IsNumber (Text.trimmed c.arrayElementType) ∧
        (Primitive.IsNumber c.arrayElementType ↔
          Text.trimmed c.arrayElementType = c.arrayElementType)) ∧
      (c.arrayElements = 0 → c.arrayElementType = "")) ∧
    ∀ id elements elementType,
      (∀ q, editClass id (NativeClass.setNumberArray elements elementType) p = .ok () q ↔
        ∃ c, p.class? id = some c ∧ c.phase = .declared ∧
          (elements = 0 ∨ Primitive.IsNumber (Text.trimmed elementType)) ∧
          q = p.putClass id { c with arrayHint := ArrayHint.ofElements elements elementType }) ∧
      ∀ e q, editClass id (NativeClass.setNumberArray elements elementType) p = .error e q →
        q = p := by
  refine ⟨fun id c hc => ?_, fun id elements elementType => ⟨fun q => ?_, ?_⟩⟩
  · have hhint := h.allClasses kept_hintsNumber id c hc
    rw [NativeClass.arrayElements, NativeClass.arrayElementType]
    cases hsome : c.arrayHint with
    | none => simp
    | some hint =>
      have hnumber := hhint hint hsome
      have hpos := hint.elements_pos
      refine ⟨fun _ => ⟨hnumber, Primitive.isNumber_iff_trimmed hnumber⟩, fun hzero => ?_⟩
      simp only [Option.map_some, Option.getD_some] at hzero
      omega
  · rw [editClass_eq_ok_iff]
    constructor
    · rintro ⟨c, d, hc, _, hset, rfl⟩
      obtain ⟨hphase, hnumber, rfl⟩ := NativeClass.setNumberArray_eq_ok_iff.1 hset
      exact ⟨c, hc, hphase, hnumber, rfl⟩
    · rintro ⟨c, hc, hphase, hnumber, rfl⟩
      have hopen : c.phase ≠ .finalized := by
        rw [hphase]
        decide
      exact ⟨c, _, hc, hopen, NativeClass.setNumberArray_eq_ok_iff.2 ⟨hphase, hnumber, rfl⟩, rfl⟩
  · exact atomic_editClass (NativeClass.atomic_setNumberArray elements elementType) id p

/-- Nodes and meshes with hints, of which that of meshes was given and cleared again. -/
def hintedPackage : Package :=
  Operation.run meshPackage
    [.setNumberArray ⟨0⟩ 3 "float", .setNumberArray ⟨1⟩ 16 " unsigned long ",
      .setNumberArray ⟨1⟩ 0 "Node"]

theorem reachable_hintedPackage : hintedPackage.Reachable := reachable_meshPackage.run (by decide)

/-- The hint of nodes names a number as it is stored, meshes have none left, and nodes keep theirs
when a hint of nodes is refused. -/
theorem array_hint_number_hinted :
    (∃ c, hintedPackage.class? ⟨0⟩ = some c ∧ c.arrayElements = 3 ∧
      Primitive.IsNumber c.arrayElementType) ∧
    (∃ c, hintedPackage.class? ⟨1⟩ = some c ∧ c.arrayElements = 0 ∧ c.arrayElementType = "") ∧
    Edit.Refused (editClass ⟨0⟩ (NativeClass.setNumberArray 4 "Node")) hintedPackage := by
  obtain ⟨hclasses, hedits⟩ := reachable_hintedPackage.attainable.array_hint_number
  have hnode : (hintedPackage.class? ⟨0⟩).any (fun c => c.arrayElements = 3 ∧
      Text.trimmed c.arrayElementType = c.arrayElementType) := by decide +kernel
  have hmesh : (hintedPackage.class? ⟨1⟩).any (·.arrayElements = 0) := by decide +kernel
  obtain ⟨node, hnode, hsome⟩ := (Option.any_eq_true _ _).1 hnode
  obtain ⟨hthree, htrimmed⟩ := of_decide_eq_true hsome
  obtain ⟨mesh, hmesh, hsome⟩ := (Option.any_eq_true _ _).1 hmesh
  have hzero : mesh.arrayElements = 0 := of_decide_eq_true hsome
  have hpos : 0 < node.arrayElements := by omega
  refine ⟨⟨node, hnode, hthree, (((hclasses _ node hnode).1 hpos).2).2 htrimmed⟩,
    ⟨mesh, hmesh, hzero, (hclasses _ mesh hmesh).2 hzero⟩, ?_⟩
  obtain ⟨hok, hrefused⟩ := hedits ⟨0⟩ 4 "Node"
  cases hrun : editClass ⟨0⟩ (NativeClass.setNumberArray 4 "Node") hintedPackage with
  | ok u q =>
    obtain ⟨_, _, _, hnumber, _⟩ := (hok q).1 hrun
    exact absurd hnumber (by decide +kernel)
  | error e q => exact ⟨e, hrun.trans (by rw [hrefused e q hrun])⟩

/-- **A hint that names nothing.**  The type ` float ` is accepted for nodes and stored with its
blanks, and no primitive has that name. -/
theorem array_hint_untrimmed :
    (∃ c, (Operation.run meshPackage [.setNumberArray ⟨0⟩ 4 " float "]).class? ⟨0⟩ = some c ∧
      c.arrayElements = 4 ∧ c.arrayElementType = " float " ∧
      Primitive.ofName? c.arrayElementType = none) ∧
    ¬∀ (p : Package) id c, p.Reachable → p.class? id = some c → 0 < c.arrayElements →
      Primitive.IsNumber c.arrayElementType := by
  have hstored : ((Operation.run meshPackage [.setNumberArray ⟨0⟩ 4 " float "]).class? ⟨0⟩).any
      (fun c => c.arrayElements = 4 ∧ c.arrayElementType = " float ") := by decide +kernel
  obtain ⟨c, hc, hsome⟩ := (Option.any_eq_true _ _).1 hstored
  obtain ⟨hfour, htype⟩ := of_decide_eq_true hsome
  have hnone : Primitive.ofName? c.arrayElementType = none := by
    rw [htype]
    decide
  refine ⟨⟨c, hc, hfour, htype, hnone⟩, fun h => ?_⟩
  obtain ⟨kind, hkind, _⟩ := h _ ⟨0⟩ c (reachable_meshPackage.run (by decide)) hc (by omega)
  rw [hnone] at hkind
  cases hkind

end Package

end ClassBindings
