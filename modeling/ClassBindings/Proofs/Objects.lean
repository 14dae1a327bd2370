import ClassBindings.Proofs.Exposure
import ClassBindings.Proofs.Permanence

/-! # Objects, and what resolution leaves alone

Resolution reads the declaration of a class and fills in what follows from it.  What identifies the
class, where it comes from, its base, the names that it hides, whether it is abstract and whether it
travels as numbers is its `NativeClass.SameFrame`: no step of resolution writes any of it
(`Package.Advances.sameFrame`), whatever the ancestors have.

That instances are counted references is the one mark that does come down a hierarchy, and it does
so by name.  A class becomes an object where it or one of its ancestors is named as a root of
objects (`Package.HasObjectRoot`); that an ancestor was marked by hand makes no difference.  The
names and the ancestors of a processed class stay as they are, so what the second step has found
holds ever after (`Package.objects_exact`). -/
namespace ClassBindings

namespace NativeClass

variable {c d e : NativeClass}

/-- The classes agree in what no step of resolution writes. -/
structure SameFrame (c d : NativeClass) : Prop where
  id : d.id = c.id
  name : d.name = c.name
  nativeName : d.nativeName = c.nativeName
  module : d.module = c.module
  header : d.header = c.header
  base : d.base = c.base
  skips : d.skips = c.skips
  isAbstract : d.isAbstract = c.isAbstract
  arrayHint : d.arrayHint = c.arrayHint

theorem SameFrame.trans (h : c.SameFrame d) (h' : d.SameFrame e) : c.SameFrame e where
  id := h'.id.trans h.id
  name := h'.name.trans h.name
  nativeName := h'.nativeName.trans h.nativeName
  module := h'.module.trans h.module
  header := h'.header.trans h.header
  base := h'.base.trans h.base
  skips := h'.skips.trans h.skips
  isAbstract := h'.isAbstract.trans h.isAbstract
  arrayHint := h'.arrayHint.trans h.arrayHint

theorem SameButProperties.sameFrame (h : c.SameButProperties d) : c.SameFrame d := by
  constructor <;> rw [h]

theorem SameButFinish.sameFrame (h : c.SameButFinish d) : c.SameFrame d := by
  constructor <;> rw [h]

end NativeClass

namespace Package

variable {p q r : Package} {id : ClassId} {chain : List ClassId} {c d e : NativeClass}

/-! ## Steps of resolution -/

/-- **No step of resolution writes the frame of a class.** -/
theorem Advances.sameFrame (h : p.Advances id c d) : c.SameFrame d := by
  cases h with
  | preprocess _ => constructor <;> rfl
  | process _ _ _ => constructor <;> rfl
  | postprocess _ => constructor <;> rfl

/-- One of these classes is named as a root of objects. -/
def HasObjectRoot (p : Package) (ids : List ClassId) : Prop :=
  ∃ a ∈ ids, ∃ b, p.class? a = some b ∧ b.name ∈ p.options.objectRoots

theorem any_isObjectRoot_iff {ids : List ClassId} :
    (ids.filterMap p.class?).any (fun b => p.options.isObjectRoot b.name) ↔
      p.HasObjectRoot ids := by
  simp only [List.any_eq_true, List.mem_filterMap, HasObjectRoot, Options.isObjectRoot,
    List.contains_iff_mem]
  constructor
  · rintro ⟨b, ⟨a, ha, hb⟩, hroot⟩
    exact ⟨a, ha, b, hb, hroot⟩
  · rintro ⟨a, ha, b, hb, hroot⟩
    exact ⟨b, ⟨a, ha, hb⟩, hroot⟩

instance (p : Package) (ids : List ClassId) : Decidable (p.HasObjectRoot ids) :=
  decidable_of_iff _ any_isObjectRoot_iff

theorem inObjectHierarchy_iff (hc : p.class? id = some c) :
    p.inObjectHierarchy c (chain.filterMap p.class?) ↔ p.HasObjectRoot (id :: chain) := by
  rw [inObjectHierarchy, ← List.filterMap_cons_some hc, any_isObjectRoot_iff]

/-- **A processed class is an object exactly if it was one, or if one of its own is a root.** -/
theorem isObject_processEntry (hc : p.class? id = some c) (chain : List ClassId) :
    (p.processEntry c chain).isObject ↔ c.isObject ∨ p.HasObjectRoot (id :: chain) := by
  rw [← inObjectHierarchy_iff hc, ← Bool.or_eq_true]
  rfl

/-! ## Names -/

/-- **No change of a class writes its name.** -/
theorem Changes.name_eq (h : p.Changes id c d) : d.name = c.name := by
  cases h with
  | declare _ hd => rw [hd]
  | rebase _ _ => rfl
  | attach _ hd => exact hd.sameFrame.name
  | advance hd => exact hd.sameFrame.name

/-- **Whether there is a root among classes that are there does not change.** -/
theorem Steps.hasObjectRoot_iff (h : Steps p q) {ids : List ClassId}
    (hids : ∀ a ∈ ids, ∃ b, p.class? a = some b) : q.HasObjectRoot ids ↔ p.HasObjectRoot ids := by
  have hstay (a : ClassId) (b : NativeClass) (hb : p.class? a = some b) :
      ∃ b', q.class? a = some b' ∧ b'.name = b.name :=
    h.class? (motive := (·.name = b.name)) hb
      (fun _ _ _ hchange hname => hchange.name_eq.trans hname) rfl
  rw [HasObjectRoot, HasObjectRoot, h.options_eq]
  constructor
  · rintro ⟨a, ha, b', hb', hroot⟩
    obtain ⟨b, hb⟩ := hids a ha
    obtain ⟨b'', hb'', hname⟩ := hstay a b hb
    cases hb'.symm.trans hb''
    exact ⟨a, ha, b, hb, hname ▸ hroot⟩
  · rintro ⟨a, ha, b, hb, hroot⟩
    obtain ⟨b', hb', hname⟩ := hstay a b hb
    exact ⟨a, ha, b', hb', hname.symm ▸ hroot⟩

/-- A class and its ancestors are classes, if the ancestors are processed. -/
theorem AllProcessed.exists_class (h : p.AllProcessed chain) (hc : p.class? id = some c) :
    ∀ a ∈ id :: chain, ∃ b, p.class? a = some b := by
  intro a ha
  rcases List.mem_cons.1 ha with rfl | ha
  · exact ⟨c, hc⟩
  · obtain ⟨b, hb, _⟩ := h a ha
    exact ⟨b, hb⟩

/-! ## From the declaration on -/

/-- On the way from `p` to `q` the class at this position was processed, with these ancestors. -/
def ProcessedOnTheWay (p q : Package) (id : ClassId) (chain : List ClassId) : Prop :=
  ∃ r s, Steps p r ∧ process id r = .ok () s ∧ Steps s q ∧ r.ancestorChain id = .ok chain

/-- On the way from `p` to `q`, the class `d` at this position has come of the declaration `c`. -/
inductive ComesOf (p : Package) (c : NativeClass) (q : Package) (id : ClassId) (d : NativeClass) :
    Prop
  | tidied (hphase : d.phase = .preprocessed) (hframe : c.SameFrame d)
      (hobject : d.isObject = c.isObject) : ComesOf p c q id d
  | processed (hphase : .processed ≤ d.phase) (hframe : c.SameFrame d)
      (hprocess : p.ProcessedOnTheWay q id d.ancestors)
      (hobject : d.isObject ↔ c.isObject ∨ q.HasObjectRoot (id :: d.ancestors)) :
      ComesOf p c q id d

section Followed
variable (hq : q.Coherent) (hd : q.class? id = some d)
include hq hd

/-- What is still written of a processed class is no matter of objects. -/
theorem ComesOf.of_processed (hstep : Step q r) (hphase : .processed ≤ d.phase)
    (hframe : c.SameFrame d) (hprocess : p.ProcessedOnTheWay q id d.ancestors)
    (hobject : d.isObject ↔ c.isObject ∨ q.HasObjectRoot (id :: d.ancestors))
    (hephase : .processed ≤ e.phase) (he : d.SameButFinish e) : ComesOf p c r id e := by
  have hsame : e.isObject = d.isObject := by rw [he]
  have hancestors : e.ancestors = d.ancestors := by rw [he]
  have hsteps : Steps q r := .single hstep
  have hids := ((hq id d hd).ancestors hphase).exists_class hd
  obtain ⟨before, after, hbefore, hok, hafter, hchain⟩ := hprocess
  refine .processed hephase (hframe.trans he.sameFrame) ?_ ?_
  · rw [hancestors]
    exact ⟨before, after, hbefore, hok, hafter.tail hstep, hchain⟩
  · rw [hsame, hancestors, hsteps.hasObjectRoot_iff hids]
    exact hobject

/-- **What one change of the class preserves.** -/
theorem ComesOf.change (h : ComesOf p c q id d) (hpq : Steps p q) (hchange : q.Changes id d e) :
    ComesOf p c (q.putClass id e) id e := by
  have hstep : Step q (q.putClass id e) := .change hd hchange
  cases h with
  | tidied hphase hframe hobject =>
    rcases hchange.of_preprocessed hphase with he | ⟨chain, hchain, hancestors, rfl⟩
    · have hephase : e.phase = .preprocessed := by rw [he, hphase]
      have hsame : e.isObject = d.isObject := by rw [he]
      exact .tidied hephase (hframe.trans he.sameFrame) (hsame.trans hobject)
    · -- The class is processed, with the ancestors that it has in this package.
      have hsteps : Steps q (q.putClass id (q.processEntry d chain)) := .single hstep
      have hids := (hq.allProcessed_of_chain hd hchain hancestors).exists_class hd
      have hframe' : d.SameFrame (q.processEntry d chain) :=
        (Advances.process hphase hchain hancestors).sameFrame
      have hok : process id q = .ok () (q.putClass id (q.processEntry d chain)) :=
        process_eq_ok_iff.2 ⟨d, chain, hd, hphase, hchain, hancestors, rfl⟩
      refine .processed (by decide : Phase.processed ≤ .processed) (hframe.trans hframe')
        ⟨q, _, hpq, hok, .refl, hchain⟩ ?_
      rw [isObject_processEntry hd, hobject, ← hsteps.hasObjectRoot_iff hids]
      rfl
  | processed hphase hframe hprocess hobject =>
    obtain ⟨hephase, he⟩ := hchange.of_processed hphase
    exact .of_processed hq hd hstep hphase hframe hprocess hobject hephase he

/-- A class that a step leaves alone has come of what it had come of. -/
theorem ComesOf.stay (h : ComesOf p c q id d) (hstep : Step q r) : ComesOf p c r id d := by
  cases h with
  | tidied hphase hframe hobject => exact .tidied hphase hframe hobject
  | processed hphase hframe hprocess hobject =>
    exact .of_processed hq hd hstep hphase hframe hprocess hobject hphase (.refl d)

/-- **What one step preserves.** -/
theorem Step.comesOf (hstep : Step q r) (hpq : Steps p q) (h : ComesOf p c q id d) :
    ∃ e, r.class? id = some e ∧ ComesOf p c r id e := by
  cases hstep with
  | grow hgrowth => exact ⟨d, hgrowth.class? hd, h.stay hq hd (.grow hgrowth)⟩
  | @change id' c' e hc' hchange =>
    by_cases hid : id = id'
    · subst hid
      cases hd.symm.trans hc'
      exact ⟨e, class?_putClass_self hd e, h.change hq hd hpq hchange⟩
    · exact ⟨d, (class?_putClass_of_ne hid q e).trans hd, h.stay hq hd (.change hc' hchange)⟩

end Followed

/-- **What a run preserves.** -/
theorem Steps.comesOf (h : Steps q r) (hq : q.Coherent) (hd : q.class? id = some d)
    (hpq : Steps p q) (hd' : ComesOf p c q id d) :
    ∃ e, r.class? id = some e ∧ ComesOf p c r id e := by
  induction h with
  | refl => exact ⟨d, hd, hd'⟩
  | tail hsteps hstep ih =>
    obtain ⟨e, he, he'⟩ := ih
    exact hstep.comesOf (Steps.coherent hsteps hq) he (hpq.trans _ _ _ hsteps) he'

/-- A run of passes leaves a declaration as it is, or something that has come of it. -/
theorem Passes.comesOf (h : Passes p q) (hp : p.Coherent) (hc : p.class? id = some c)
    (hphase : c.phase = .declared) :
    q.class? id = some c ∨ ∃ d, q.class? id = some d ∧ ComesOf p c q id d := by
  rcases h.declared_cases hc hphase with hq | ⟨r, hr, hcr, hrest⟩
  · exact Or.inl hq
  · have hadvances : p.Advances id c (c.preprocess p.types.resolve p.options) :=
      .preprocess hphase
    have htidied : ComesOf p c r id (c.preprocess p.types.resolve p.options) :=
      .tidied rfl hadvances.sameFrame rfl
    exact Or.inr (hrest.steps.comesOf (hr.coherent hp) hcr hr.steps htidied)

/-! ## Resolved classes -/

/-- What the first and the last step leave alone. -/
theorem object_of_tidy_or_finish (hc : p.class? id = some c)
    (h : preprocess id p = .ok () q ∨ postprocess id p = .ok () q) :
    ∃ d, q.class? id = some d ∧ c.SameFrame d ∧ d.isObject = c.isObject := by
  rcases h with h | h
  · obtain ⟨c', hc', hphase, rfl⟩ := preprocess_eq_ok_iff.1 h
    cases hc.symm.trans hc'
    have hadvances : p.Advances id c _ := .preprocess hphase
    exact ⟨_, class?_putClass_self hc _, hadvances.sameFrame, rfl⟩
  · obtain ⟨c', hc', hphase, rfl⟩ := postprocess_eq_ok_iff.1 h
    cases hc.symm.trans hc'
    have hadvances : p.Advances id c _ := .postprocess hphase
    exact ⟨_, class?_putClass_self hc _, hadvances.sameFrame, rfl⟩

/-- What the second step leaves alone, and what it makes an object. -/
theorem object_of_process (hc : p.class? id = some c) (h : process id p = .ok () q) :
    ∃ d, q.class? id = some d ∧ p.ancestorChain id = .ok d.ancestors ∧ c.SameFrame d ∧
      (d.isObject ↔ c.isObject ∨ p.HasObjectRoot (id :: d.ancestors)) := by
  obtain ⟨c', chain, hc', hphase, hchain, hancestors, rfl⟩ := process_eq_ok_iff.1 h
  cases hc.symm.trans hc'
  have hadvances : p.Advances id c _ := .process hphase hchain hancestors
  exact ⟨_, class?_putClass_self hc _, hchain, hadvances.sameFrame, isObject_processEntry hc chain⟩

/-- **A class is an object as declared or by a root, and resolution leaves the rest of its
declaration alone.**  In any package, each step that is carried out leaves the frame of its class
alone: identity, origin, base, hidden names, and the marks of abstract classes and of arrays.  The
first and the last step leave alone whether it is an object; the second makes it one exactly if the
class or one of its ancestors in that package, which it stores, is named as a root.

So let resolution take a class of a reachable package out of its declaration, and let anything
happen after that, until the class is finalized.  Its frame is that of the declaration.  It was
processed on the way, with the ancestors that it stores and has to this day, and it is an object
exactly if it was declared one, or if it or one of these ancestors is named as a root.  What else is
marked on an ancestor makes no difference. -/
theorem objects_exact :
    (∀ (p q : Package) id c, p.class? id = some c →
      (preprocess id p = .ok () q ∨ postprocess id p = .ok () q →
        ∃ d, q.class? id = some d ∧ c.SameFrame d ∧ d.isObject = c.isObject) ∧
      (process id p = .ok () q → ∃ d, q.class? id = some d ∧
        p.ancestorChain id = .ok d.ancestors ∧ c.SameFrame d ∧
        (d.isObject ↔ c.isObject ∨ p.HasObjectRoot (id :: d.ancestors)))) ∧
    ∀ (p q : Package) id c d e (resolution later : List Operation), p.Reachable →
      p.class? id = some c → c.phase = .declared → (∀ op ∈ resolution, op.isResolution) →
      (Operation.run p resolution).class? id = some d → d.phase ≠ .declared →
      (∀ op ∈ later, ¬op.isReplacement) → q = Operation.run p (resolution ++ later) →
      q.class? id = some e → e.phase = .finalized →
        c.SameFrame e ∧ p.ProcessedOnTheWay q id e.ancestors ∧
        q.ancestorChain id = .ok e.ancestors ∧
        (e.isObject ↔ c.isObject ∨ q.HasObjectRoot (id :: e.ancestors)) := by
  refine ⟨fun p q id c hc => ⟨object_of_tidy_or_finish hc, object_of_process hc⟩, ?_⟩
  intro p q id c d e resolution later h hc hphase hresolution hd hdphase hlater hq he hephase
  have hpasses := Operation.run_passes hresolution p
  have hcoherent := hpasses.coherent h.coherent
  have hsteps := Operation.run_steps hlater (Operation.run p resolution)
  rw [← Operation.run_append, ← hq] at hsteps
  rcases hpasses.comesOf h.coherent hc hphase with hsame | ⟨d', hd', hcomes⟩
  · rw [hsame] at hd
    cases hd
    exact absurd hphase hdphase
  obtain ⟨e', he', hcomes⟩ := hsteps.comesOf hcoherent hd' hpasses.steps hcomes
  cases he.symm.trans he'
  cases hcomes with
  | tidied hpreprocessed _ _ => exact absurd (hephase.symm.trans hpreprocessed) (by decide)
  | processed hprocessed hframe hprocess hobject =>
    have hchain := ((hsteps.coherent hcoherent).ancestorChain_eq he hprocessed).1
    exact ⟨hframe, hprocess, hchain, hobject⟩

/-- Nodes are derived from a root of objects.  Colors are derived from vectors, which are marked by
hand as abstract, as objects and as arrays. -/
def countedHistory : List Operation :=
  [.registerModule "scene", .registerClass ⟨0⟩ "RefCounted" "scene::RefCounted",
    .registerClass ⟨0⟩ "Node" "scene::Node", .setBase ⟨1⟩ (some ⟨0⟩),
    .registerClass ⟨0⟩ "Vector" "scene::Vector", .setAbstract ⟨2⟩ true, .setObject ⟨2⟩ true,
    .setNumberArray ⟨2⟩ 3 "float", .registerClass ⟨0⟩ "Color" "scene::Color",
    .setBase ⟨3⟩ (some ⟨2⟩)]

/-- The package in which nodes and colors are declared. -/
def countedPackage : Package := Operation.run { name := "scene" } countedHistory

/-- Nodes end as objects, although none was declared one.  Colors end as none, and nothing of what
is marked on vectors is marked on them. -/
theorem objects_exact_color :
    ∃ (q : Package) (node vector color : NativeClass),
      q = Operation.run countedPackage [.resolveAll] ∧
      q.class? ⟨1⟩ = some node ∧ q.class? ⟨2⟩ = some vector ∧ q.class? ⟨3⟩ = some color ∧
      node.isObject ∧ vector.isObject ∧ vector.isAbstract ∧ vector.isNumberArray ∧
      color.ancestors = [⟨2⟩] ∧ ¬color.isObject ∧ ¬color.isAbstract ∧ color.arrayHint = none := by
  have hreachable : countedPackage.Reachable := ⟨"scene", {}, countedHistory, by decide, rfl⟩
  have hnode : (countedPackage.class? ⟨1⟩).any (·.phase = .declared) := by decide +kernel
  have hcolor : (countedPackage.class? ⟨3⟩).any fun c =>
      c.phase = .declared ∧ ¬c.isObject ∧ ¬c.isAbstract ∧ c.arrayHint = none := by decide +kernel
  generalize hq : Operation.run countedPackage [.resolveAll] = q
  have hnode' : (q.class? ⟨1⟩).any fun e => e.phase = .finalized ∧ e.ancestors = [⟨0⟩] := by
    subst hq
    decide +kernel
  have hvector' : (q.class? ⟨2⟩).any fun e =>
      e.isObject ∧ e.isAbstract ∧ e.isNumberArray := by
    subst hq
    decide +kernel
  have hcolor' : (q.class? ⟨3⟩).any fun e => e.phase = .finalized ∧ e.ancestors = [⟨2⟩] := by
    subst hq
    decide +kernel
  have hroots : q.HasObjectRoot [⟨1⟩, ⟨0⟩] ∧ ¬q.HasObjectRoot [⟨3⟩, ⟨2⟩] := by
    subst hq
    decide +kernel
  obtain ⟨c₁, hc₁, hsome⟩ := (Option.any_eq_true _ _).1 hnode
  have hphase₁ : c₁.phase = .declared := of_decide_eq_true hsome
  obtain ⟨c₃, hc₃, hsome⟩ := (Option.any_eq_true _ _).1 hcolor
  obtain ⟨hphase₃, hobject₃, habstract₃, harray₃⟩ := of_decide_eq_true hsome
  obtain ⟨node, he₁, hsome⟩ := (Option.any_eq_true _ _).1 hnode'
  obtain ⟨hfinal₁, hancestors₁⟩ := of_decide_eq_true hsome
  obtain ⟨vector, he₂, hsome⟩ := (Option.any_eq_true _ _).1 hvector'
  obtain ⟨hobject₂, habstract₂, harray₂⟩ := of_decide_eq_true hsome
  obtain ⟨color, he₃, hsome⟩ := (Option.any_eq_true _ _).1 hcolor'
  obtain ⟨hfinal₃, hancestors₃⟩ := of_decide_eq_true hsome
  have hresolution : ∀ op ∈ [Operation.resolveAll], op.isResolution := by decide
  have hlater : ∀ op ∈ ([] : List Operation), ¬op.isReplacement := by decide
  obtain ⟨_, _, _, hiff₁⟩ := objects_exact.2 countedPackage q ⟨1⟩ c₁ node node _ _ hreachable hc₁
    hphase₁ hresolution (hq ▸ he₁) (hfinal₁ ▸ by decide) hlater hq.symm he₁ hfinal₁
  obtain ⟨hframe, _, _, hiff₃⟩ := objects_exact.2 countedPackage q ⟨3⟩ c₃ color color _ _ hreachable
    hc₃ hphase₃ hresolution (hq ▸ he₃) (hfinal₃ ▸ by decide) hlater hq.symm he₃ hfinal₃
  rw [hancestors₁] at hiff₁
  rw [hancestors₃] at hiff₃
  refine ⟨q, node, vector, color, rfl, he₁, he₂, he₃, hiff₁.2 (Or.inr hroots.1), hobject₂,
    habstract₂, harray₂, hancestors₃, ?_, hframe.isAbstract ▸ habstract₃, hframe.arrayHint ▸ harray₃⟩
  rw [hiff₃]
  exact not_or.2 ⟨hobject₃, hroots.2⟩

end Package

end ClassBindings
