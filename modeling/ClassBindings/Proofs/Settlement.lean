import ClassBindings.Proofs.Locality
import ClassBindings.Proofs.Permanence

/-! # The outcome is settled when resolution has begun

Once resolution has begun on a class and on all its ancestors, what will become of the class is
settled.  Types may be registered and other classes declared, accessors may be attached to the
ancestors, all in between the steps of resolution; none of it reaches the class.  Only what is
attached to the class itself, or put in its place, can make a difference.

The proof follows a history with a shadow of the package in which nothing is done but resolution.
As far as the class goes the shadow stays `Alike` to the package, one operation after another
(`Alike.effect`): what resolves one of the classes in question is matched, and the rest touches
neither these nor anything that they still read.  So two histories end with classes that two runs of
resolution end with too, and these are equal. -/
namespace ClassBindings

namespace Operation

/-- The operation attaches an accessor to this class. -/
def attachesTo (id : ClassId) : Operation → Bool
  | attachAccessor id' _ _ => id' = id
  | _ => false

end Operation

namespace Package

variable {p p' q : Package} {id : ClassId} {chain : List ClassId} {c d e : NativeClass}
  {op : Operation}

/-- Every class of the list is there, and its resolution has begun. -/
def AllBegun (p : Package) (ids : List ClassId) : Prop :=
  ∀ a ∈ ids, ∃ c, p.class? a = some c ∧ .preprocessed ≤ c.phase

theorem AllBegun.steps {ids : List ClassId} (h : p.AllBegun ids) (hsteps : Steps p q) :
    q.AllBegun ids := by
  intro a ha
  obtain ⟨c, hc, hphase⟩ := h a ha
  obtain ⟨d, hd, hle⟩ := hsteps.phase_le hc
  exact ⟨d, hd, Nat.le_trans hphase hle⟩

theorem AllBegun.phase_ne_declared {ids : List ClassId} (h : p.AllBegun ids) {a : ClassId}
    (ha : a ∈ ids) (hc : p.class? a = some c) : c.phase ≠ .declared := by
  obtain ⟨c', hc', hphase⟩ := h a ha
  rw [hc] at hc'
  cases hc'
  intro hdeclared
  exact absurd (hdeclared ▸ hphase) (by decide)

/-! ## A package and its shadow -/

namespace Alike

/-- **What one operation preserves.** -/
theorem effect (h : Alike id chain p q) (hbegun : p.AllBegun (id :: chain))
    (heffect : op.Effect p p') (hop : ¬op.attachesTo id) :
    ∃ q', Passes q q' ∧ Alike id chain p' q' := by
  cases heffect with
  | refl => exact ⟨q, .refl, h⟩
  | grow _ hgrows =>
    refine ⟨q, .refl, h.congr_left (fun b hb => ?_) hgrows.steps.options_eq
      fun b hb e he hdeclared => absurd hdeclared (hbegun.phase_ne_declared hb he)⟩
    obtain ⟨e, _, he, _⟩ := h.counterpart b hb
    exact (hgrows.class? he).trans he.symm
  | declare hc hdeclared _ =>
    exact ⟨q, .refl, h.putClass_left
      (fun ha => hbegun.phase_ne_declared ha hc hdeclared) _⟩
  | rebase hc hdeclared _ =>
    exact ⟨q, .refl, h.putClass_left
      (fun ha => hbegun.phase_ne_declared ha hc hdeclared) _⟩
  | @attach a accessor options c claim hc _ _ =>
    by_cases ha : a ∈ id :: chain
    · -- Accessors are attached to an ancestor, and its counterpart may stay as it is.
      obtain ⟨e, d, he, hd, hcd⟩ := h.counterpart a ha
      rw [hc] at he
      cases he
      have hphase : c.phase ≠ .declared := hbegun.phase_ne_declared ha hc
      have hcd' : (c.attached accessor claim).Counterpart d :=
        hcd.of_sameButProperties (NativeClass.sameButProperties_attached accessor claim c)
      have hput : Alike id chain (p.putClass a (c.attached accessor claim)) (q.putClass a d) :=
        h.putClass hc hd rfl hphase hcd' fun hid => absurd (decide_eq_true hid) hop
      rw [putClass_self hd] at hput
      exact ⟨q, .refl, hput⟩
    · exact ⟨q, .refl, h.putClass_left ha _⟩
  | resolve _ hpasses => exact h.passes hpasses

/-- **What a history preserves.** -/
theorem run {operations : List Operation} (h : Alike id chain p q)
    (hbegun : p.AllBegun (id :: chain))
    (hops : ∀ op ∈ operations, ¬op.isReplacement ∧ ¬op.attachesTo id) :
    ∃ q', Passes q q' ∧ Alike id chain (Operation.run p operations) q' := by
  induction operations generalizing p q with
  | nil => exact ⟨q, .refl, h⟩
  | cons op rest ih =>
    obtain ⟨⟨hreplacement, hattach⟩, hrest⟩ := List.forall_mem_cons.1 hops
    have heffect := Operation.apply_effect hreplacement p
    obtain ⟨q₁, hq₁, h₁⟩ := h.effect hbegun heffect hattach
    obtain ⟨q₂, hq₂, h₂⟩ := ih h₁ (hbegun.steps heffect.steps) hrest
    exact ⟨q₂, Relation.ReflTransGen.trans hq₁ hq₂, h₂⟩

end Alike

/-! ## Outcomes -/

/-- A history that leaves the class finalized leaves it as some run of resolution would. -/
theorem Alike.passes_of_run (h : Alike id chain p p) (hbegun : p.AllBegun (id :: chain))
    {operations : List Operation}
    (hops : ∀ op ∈ operations, ¬op.isReplacement ∧ ¬op.attachesTo id)
    (hd : (Operation.run p operations).class? id = some d) :
    ∃ q, Passes p q ∧ q.class? id = some d := by
  obtain ⟨q, hq, halike⟩ := h.run hbegun hops
  exact ⟨q, hq, halike.self.trans hd⟩

/-- **The outcome is settled when resolution has begun.**  In a reachable package let resolution
have begun on a class and on each of its ancestors.  Then any two histories from there end with the
same class, if both end with it finalized: all operations may occur in them but whole replacements
and those that attach accessors to the class itself.  It is the class that resolving the package as
a whole ends with. -/
theorem Reachable.outcome_settled (h : p.Reachable) (hchain : p.ancestorChain id = .ok chain)
    (hbegun : ∀ a ∈ id :: chain, ∀ c, p.class? a = some c → .preprocessed ≤ c.phase)
    {first : List Operation} (hfirst : ∀ op ∈ first, ¬op.isReplacement ∧ ¬op.attachesTo id)
    (hd : (Operation.run p first).class? id = some d) (hdphase : d.phase = .finalized) :
    (∀ second : List Operation, (∀ op ∈ second, ¬op.isReplacement ∧ ¬op.attachesTo id) →
      ∀ e, (Operation.run p second).class? id = some e → e.phase = .finalized → e = d) ∧
    (Operation.apply p .resolveAll).class? id = some d := by
  obtain ⟨c, hc⟩ := class?_of_ancestorChain hchain
  have hlineage := h.coherent.toGrounded.lineage_of_ancestorChain hc hchain
  have hall : p.AllBegun (id :: chain) := by
    intro a ha
    obtain ⟨b, hb⟩ := (Lineage.base hc hlineage).class?_of_mem ha
    exact ⟨b, hb, hbegun a ha b hb⟩
  have halike : Alike id chain p p :=
    .of_class?_eq hc hlineage rfl (fun _ => rfl) fun _ _ => rfl
  obtain ⟨q, hq, hqd⟩ := halike.passes_of_run hall hfirst hd
  constructor
  · intro second hsecond e he hephase
    obtain ⟨r, hr, hre⟩ := halike.passes_of_run hall hsecond he
    exact hq.eq_of_both_finalized hr hqd hdphase hre hephase
  · obtain ⟨hpasses, e, he, hephase⟩ := h.coherent.resolveAll_finalizes hc
    rw [he, hq.eq_of_both_finalized hpasses hqd hdphase he hephase]

/-- The package of nodes and meshes, with resolution of both begun.  Nodes have a getter. -/
def bothBegunPackage : Package :=
  Operation.run meshPackage
    [.addMethod ⟨0⟩ (.getter "GetName" (.ofName "String")), .preprocess ⟨0⟩, .preprocess ⟨1⟩]

/-- Meshes end the same if they are resolved at once, or after a class has been derived from them, a
type has got another name, and the getter has been attached to the class of nodes. -/
theorem outcome_settled_mesh :
    ∃ d, (Operation.run bothBegunPackage [.resolveClass ⟨0⟩, .resolveClass ⟨1⟩]).class? ⟨1⟩ =
        some d ∧ d.phase = .finalized ∧
      (Operation.run bothBegunPackage
        [.registerClass ⟨0⟩ "Skin" "scene::Skin", .setBase ⟨2⟩ (some ⟨1⟩), .addMethod ⟨1⟩
          (.constructor "Mesh"), .registerAlias "number" "int", .attachAccessor ⟨0⟩ ⟨0⟩ {},
          .process ⟨0⟩, .process ⟨1⟩, .setAbstract ⟨1⟩ true, .resolveAll]).class? ⟨1⟩ = some d := by
  have hreachable : bothBegunPackage.Reachable := reachable_meshPackage.run (by decide)
  have hchain : bothBegunPackage.ancestorChain ⟨1⟩ = .ok [⟨0⟩] := by decide +kernel
  have hbegun : ∀ a ∈ [(⟨1⟩ : ClassId), ⟨0⟩], (bothBegunPackage.class? a).all
      (.preprocessed ≤ ·.phase) := by decide +kernel
  have hfirst : ((Operation.run bothBegunPackage
      [.resolveClass ⟨0⟩, .resolveClass ⟨1⟩]).class? ⟨1⟩).any (·.phase = .finalized) := by
    decide +kernel
  have hsecond : ((Operation.run bothBegunPackage
      [.registerClass ⟨0⟩ "Skin" "scene::Skin", .setBase ⟨2⟩ (some ⟨1⟩), .addMethod ⟨1⟩
        (.constructor "Mesh"), .registerAlias "number" "int", .attachAccessor ⟨0⟩ ⟨0⟩ {},
        .process ⟨0⟩, .process ⟨1⟩, .setAbstract ⟨1⟩ true, .resolveAll]).class? ⟨1⟩).any
      (·.phase = .finalized) := by decide +kernel
  obtain ⟨d, hd, hsome⟩ := (Option.any_eq_true _ _).1 hfirst
  obtain ⟨e, he, hsome'⟩ := (Option.any_eq_true _ _).1 hsecond
  have hdphase : d.phase = .finalized := of_decide_eq_true hsome
  have hphases : ∀ a ∈ [(⟨1⟩ : ClassId), ⟨0⟩], ∀ c, bothBegunPackage.class? a = some c →
      Phase.preprocessed ≤ c.phase := fun a ha c hc =>
    of_decide_eq_true ((Option.all_eq_true _ _).1 (hbegun a ha) c hc)
  have hsame := (hreachable.outcome_settled hchain hphases (by decide) hd hdphase).1 _ (by decide)
    e he (of_decide_eq_true hsome')
  exact ⟨d, hd, hdphase, hsame ▸ he⟩

end Package

end ClassBindings
