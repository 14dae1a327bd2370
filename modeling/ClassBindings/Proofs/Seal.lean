import ClassBindings.Proofs.Coherence

/-! # Sealed declarations

Once resolution has begun on a class its declaration is `Sealed`: every edit of it is refused and
leaves the whole package as it was.  These edits have one thing in common, that they ask whether the
class is still declared before they do anything else, and an edit that asks is refused where the
answer is no (`NativeClass.refused_of_asks`).

Attaching an accessor does not ask.  It is accepted in every phase but the last, whenever the
accessor claims a slot, and then changes the properties of a class whose declaration is sealed
(`attachAccessor_preprocessed`).  It is the one operation, besides those of resolution and whole
replacement, that writes anything of a sealed class (`declaration_sealed`). -/
namespace ClassBindings

namespace NativeClass

variable {α : Type} {c : NativeClass}

/-- **An edit that asks first is refused** for a class that is no longer declared. -/
theorem refused_of_asks (hphase : c.phase ≠ .declared) (f : NativeClass → Edit NativeClass α) :
    Edit.Refused (do let c ← get; c.checkDeclared; f c) c :=
  Edit.Refused.bind_check fun _ h => absurd (checkDeclared_eq_ok_iff.1 h) hphase

theorem refused_declare (hphase : c.phase ≠ .declared) (change : NativeClass → NativeClass) :
    Edit.Refused (declare change) c := refused_of_asks hphase fun c => set (change c)

theorem refused_setNumberArray (hphase : c.phase ≠ .declared) (elements : Nat)
    (elementType : String) : Edit.Refused (setNumberArray elements elementType) c :=
  refused_of_asks hphase _

theorem refused_addMethod (hphase : c.phase ≠ .declared) (m : Method) :
    Edit.Refused (addMethod m) c := (refused_declare hphase _).bind _

end NativeClass

namespace Package

variable {α : Type} {p q : Package} {id : ClassId} {c d : NativeClass}

/-- What is refused by the class is refused by the package. -/
theorem refused_editClass {edit : Edit NativeClass α} (hc : p.class? id = some c)
    (h : Edit.Refused edit c) : Edit.Refused (editClass id edit) p := by
  obtain ⟨e, he⟩ := h
  rw [Edit.Refused, editClass, hc]
  by_cases hfinal : c.isFinalized
  · exact ⟨.classFinalized c.name, if_pos hfinal⟩
  · exact ⟨e, (if_neg hfinal).trans (Edit.within_apply_error (putClass_self hc) he)⟩

/-- Every edit of the declaration of this class is refused, and leaves the package as it was. -/
structure Sealed (p : Package) (id : ClassId) : Prop where
  setAbstract : ∀ value, Edit.Refused (editClass id (NativeClass.setAbstract value)) p
  setObject : ∀ value, Edit.Refused (editClass id (NativeClass.setObject value)) p
  setNumberArray : ∀ elements elementType,
    Edit.Refused (editClass id (NativeClass.setNumberArray elements elementType)) p
  setSkip : ∀ name skip, Edit.Refused (editClass id (NativeClass.setSkip name skip)) p
  addMethod : ∀ m, Edit.Refused (editClass id (NativeClass.addMethod m)) p
  addOverride : ∀ o, Edit.Refused (editClass id (NativeClass.addOverride o)) p
  setClassHeader : ∀ header, Edit.Refused (setClassHeader id header) p
  setBase : ∀ base, Edit.Refused (setBase id base) p

section NotDeclared
variable (hc : p.class? id = some c)
include hc

theorem sealed_of_class? (hphase : c.phase ≠ .declared) : p.Sealed id where
  setAbstract _ := refused_editClass hc (NativeClass.refused_declare hphase _)
  setObject _ := refused_editClass hc (NativeClass.refused_declare hphase _)
  setNumberArray _ _ := refused_editClass hc (NativeClass.refused_setNumberArray hphase _ _)
  setSkip _ _ := refused_editClass hc (NativeClass.refused_declare hphase _)
  addMethod m := refused_editClass hc (NativeClass.refused_addMethod hphase m)
  addOverride _ := refused_editClass hc (NativeClass.refused_declare hphase _)
  setClassHeader _ := Edit.Refused.bind_check fun _ _ =>
    refused_editClass hc (NativeClass.refused_declare hphase _)
  setBase _ := Edit.Refused.bind_check fun c' hc' => Edit.Refused.bind_check fun _ hdeclared => by
    have hsame := getClass_eq_ok_iff.1 hc'
    rw [hc] at hsame
    cases hsame
    exact absurd (NativeClass.checkDeclared_eq_ok_iff.1 hdeclared) hphase

/-- Attaching an accessor is refused, or it writes properties and what was reported on them. -/
theorem editClass_attachAccessor_cases (accessor : MethodId) (options : Options) :
    Edit.Refused (editClass id (NativeClass.attachAccessor accessor options)) p ∧
        (c.phase = .finalized ∨ ∃ e, c.accessorClaim options accessor = .error e) ∨
      c.phase ≠ .finalized ∧ ∃ claim, c.accessorClaim options accessor = .ok claim ∧
        editClass id (NativeClass.attachAccessor accessor options) p =
          .ok () (p.putClass id (c.attached accessor claim)) := by
  by_cases hfinal : c.phase = .finalized
  · refine Or.inl ⟨⟨.classFinalized c.name, ?_⟩, Or.inl hfinal⟩
    simp [editClass, hc, NativeClass.isFinalized, Phase.isFinalized, hfinal]
  · rcases NativeClass.attachAccessor_cases accessor options c with
      ⟨claim, hclaim, hok⟩ | ⟨e, hclaim, herror⟩
    · refine Or.inr ⟨hfinal, claim, hclaim, ?_⟩
      simp [editClass, hc, NativeClass.isFinalized, Phase.isFinalized, hfinal, Edit.within, hok]
    · exact Or.inl ⟨refused_editClass hc ⟨e, herror⟩, Or.inr ⟨e, hclaim⟩⟩

end NotDeclared

end Package

namespace Operation

open Package

variable {p q : Package} {id : ClassId} {c : NativeClass} {op : Operation}

/-- **What can be done to a sealed class**: it can be resolved, and accessors can be attached. -/
theorem Effect.of_sealed (h : Effect p op q) (hc : p.class? id = some c)
    (hphase : c.phase ≠ .declared) :
    q.class? id = some c ∨ (op.isResolution ∧ Passes p q) ∨
      ∃ accessor options claim, op = .attachAccessor id accessor options ∧ c.phase ≠ .finalized ∧
        c.accessorClaim options accessor = .ok claim ∧
        q = p.putClass id (c.attached accessor claim) := by
  have hne {id' : ClassId} {c' : NativeClass} (hc' : p.class? id' = some c')
      (hdeclared : c'.phase = .declared) : id ≠ id' := by
    rintro rfl
    rw [hc] at hc'
    cases hc'
    exact hphase hdeclared
  cases h with
  | refl => exact Or.inl hc
  | grow _ h => exact Or.inl (h.class? hc)
  | declare hc' hdeclared _ =>
    exact Or.inl ((class?_putClass_of_ne (hne hc' hdeclared) _ _).trans hc)
  | rebase hc' hdeclared _ =>
    exact Or.inl ((class?_putClass_of_ne (hne hc' hdeclared) _ _).trans hc)
  | @attach id' accessor options c' claim hc' hfinal hclaim =>
    by_cases hid : id = id'
    · subst hid
      rw [hc] at hc'
      cases hc'
      exact Or.inr (Or.inr ⟨accessor, options, claim, rfl, hfinal, hclaim, rfl⟩)
    · exact Or.inl ((class?_putClass_of_ne hid _ _).trans hc)
  | resolve hop hpasses => exact Or.inr (Or.inl ⟨hop, hpasses⟩)

end Operation

namespace Package

variable {p : Package} {id : ClassId} {c : NativeClass}

/-- **Declarations are sealed, except to accessors.**  Let a class no longer be declared.  Every
edit of its declaration is refused and leaves the package as it was.  Attaching an accessor is
refused in the same way exactly if the class is finalized or the accessor claims no slot, and
otherwise writes properties of the class and what was reported on them, and nothing else.  So the
class stays as it is unless an operation belongs to resolution, attaches an accessor to it or
replaces it. -/
theorem declaration_sealed (hc : p.class? id = some c) (hphase : c.phase ≠ .declared) :
    p.Sealed id ∧
    (∀ accessor options,
      (Edit.Refused (editClass id (NativeClass.attachAccessor accessor options)) p ↔
        c.phase = .finalized ∨ ∃ e, c.accessorClaim options accessor = .error e) ∧
      ∀ q, editClass id (NativeClass.attachAccessor accessor options) p = .ok () q →
        ∃ d, q = p.putClass id d ∧ c.SameButProperties d) ∧
    ∀ op : Operation, ¬op.isReplacement → ¬op.isResolution →
      (∀ accessor options, op ≠ .attachAccessor id accessor options) →
      (op.apply p).class? id = some c := by
  refine ⟨sealed_of_class? hc hphase, fun accessor options => ?_,
    fun op hreplacement hresolution hattach => ?_⟩
  · rcases editClass_attachAccessor_cases hc accessor options with
      ⟨⟨e, herror⟩, hwhy⟩ | ⟨hfinal, claim, hclaim, hok⟩
    · refine ⟨⟨fun _ => hwhy, fun _ => ⟨e, herror⟩⟩, fun q hq => ?_⟩
      rw [herror] at hq
      cases hq
    · refine ⟨⟨?_, ?_⟩, fun q hq => ?_⟩
      · rintro ⟨e, herror⟩
        rw [hok] at herror
        cases herror
      · rintro (hphase | ⟨e, he⟩)
        · exact absurd hphase hfinal
        · rw [hclaim] at he
          cases he
      · rw [hok] at hq
        cases hq
        exact ⟨_, rfl, NativeClass.sameButProperties_attached ..⟩
  · rcases (Operation.apply_effect hreplacement p).of_sealed hc hphase with
      hsame | ⟨hop, _⟩ | ⟨accessor, options, _, hop, _⟩
    · exact hsame
    · exact absurd hop hresolution
    · exact absurd hop (hattach accessor options)

/-- The package of nodes and meshes, with resolution of meshes begun. -/
def begunPackage : Package := Operation.run meshPackage [.preprocess ⟨1⟩]

theorem reachable_begunPackage : begunPackage.Reachable := reachable_meshPackage.run (by decide)

/-- A mesh on which resolution has begun takes no more methods. -/
theorem declaration_sealed_mesh :
    ∃ c, begunPackage.class? ⟨1⟩ = some c ∧ c.phase = .preprocessed ∧ begunPackage.Sealed ⟨1⟩ ∧
      ∀ m, (Operation.apply begunPackage (.addMethod ⟨1⟩ m)).class? ⟨1⟩ = some c := by
  have hbegun : (begunPackage.class? ⟨1⟩).any (·.phase = .preprocessed) := by decide +kernel
  obtain ⟨c, hc, hsome⟩ := (Option.any_eq_true _ _).1 hbegun
  have hphase : c.phase = .preprocessed := of_decide_eq_true hsome
  have hnot : c.phase ≠ .declared := by
    rw [hphase]
    decide
  obtain ⟨hsealed, _, hstays⟩ := declaration_sealed hc hnot
  refine ⟨c, hc, hphase, hsealed, fun m => hstays _ ?_ ?_ ?_⟩
  · exact Bool.false_ne_true
  · exact Bool.false_ne_true
  · rintro accessor options ⟨⟩

/-- **The seal has a hole.**  The mesh still lets a setter be attached, and has a property after
that which it did not have before. -/
theorem attachAccessor_preprocessed :
    ∃ c d, begunPackage.Reachable ∧ begunPackage.class? ⟨1⟩ = some c ∧ c.phase = .preprocessed ∧
      ¬Edit.Refused (editClass ⟨1⟩ (NativeClass.attachAccessor ⟨1⟩ {})) begunPackage ∧
      (Operation.apply begunPackage (.attachAccessor ⟨1⟩ ⟨1⟩ {})).class? ⟨1⟩ = some d ∧
      c.property? "move" = none ∧ d.property? "move" = some { setter := some ⟨1⟩ } := by
  have hbegun : (begunPackage.class? ⟨1⟩).any
      (fun c => c.phase = .preprocessed ∧ c.property? "move" = none ∧
        (c.accessorClaim {} ⟨1⟩).toOption = some ⟨"move", .setter, ⟨1⟩⟩ ∧
        (c.attached ⟨1⟩ ⟨"move", .setter, ⟨1⟩⟩).property? "move" =
          some { setter := some ⟨1⟩ }) := by decide +kernel
  obtain ⟨c, hc, hsome⟩ := (Option.any_eq_true _ _).1 hbegun
  obtain ⟨hphase, hbefore, hclaim, hafter⟩ := of_decide_eq_true hsome
  rcases editClass_attachAccessor_cases hc ⟨1⟩ {} with
    ⟨_, hfinal | ⟨e, he⟩⟩ | ⟨_, claim, hclaim', hok⟩
  · rw [hphase] at hfinal
    cases hfinal
  · rw [he] at hclaim
    cases hclaim
  · rw [hclaim'] at hclaim
    cases hclaim
    have happly : Operation.apply begunPackage (.attachAccessor ⟨1⟩ ⟨1⟩ {}) =
        begunPackage.putClass ⟨1⟩ (c.attached ⟨1⟩ ⟨"move", .setter, ⟨1⟩⟩) := by
      rw [Operation.apply, hok]
      rfl
    refine ⟨c, _, reachable_begunPackage, hc, hphase, ?_, happly ▸ class?_putClass_self hc _,
      hbefore, hafter⟩
    rintro ⟨e, herror⟩
    rw [hok] at herror
    cases herror

end Package

end ClassBindings
