import ClassBindings.Proofs.Effect
import ClassBindings.Proofs.Lineage

/-! # Coherence of reachable packages

An entry is `InPlace` if it carries its own position, its base links lead to classes and come to an
end, and, once it is processed, it stores the lineage that its base links give it, all of whose
classes are processed.  A package is `Coherent` if all its entries are in place.  A new package is
coherent and every step keeps it so (`Step.coherent`), so every reachable package is coherent
(`Reachable.coherent`).

The coupling between classes is in the stored lineages: a new base for one class could leave those
of its descendants behind.  It cannot, since a base changes only while its class is declared, and
every class above a processed one has been processed before. -/
namespace ClassBindings.Package

variable {p q : Package} {id : ClassId} {c d : NativeClass}

/-- Every class of the list is there and has been processed. -/
def AllProcessed (p : Package) (ids : List ClassId) : Prop :=
  ∀ a ∈ ids, ∃ b, p.class? a = some b ∧ .processed ≤ b.phase

/-- What every history keeps of the class at a position. -/
structure InPlace (p : Package) (id : ClassId) (c : NativeClass) : Prop where
  /-- The entry carries the position that it is at. -/
  id_eq : c.id = id
  /-- Base links lead to classes and come to an end. -/
  grounded : ∃ ids, p.Lineage c.base ids
  /-- A processed class stores its lineage. -/
  lineage : .processed ≤ c.phase → p.Lineage c.base c.ancestors
  /-- A class is processed after its ancestors. -/
  ancestors : .processed ≤ c.phase → p.AllProcessed c.ancestors
  /-- No lineage is stored before that. -/
  unprocessed : c.phase < .processed → c.ancestors = []

/-- What every history keeps of the classes of a package. -/
def Coherent (p : Package) : Prop := ∀ id c, p.class? id = some c → p.InPlace id c

theorem Coherent.toGrounded (h : p.Coherent) : p.Grounded := fun id c hc => (h id c hc).grounded

theorem coherent_new (name : String) (options : Options) : Coherent { name, options } := by
  intro id c hc
  cases hc

/-- An entry stays in place while others come and advance. -/
theorem InPlace.mono (h : p.InPlace id c)
    (hlineage : ∀ next ids, p.Lineage next ids → q.Lineage next ids)
    (hprocessed : ∀ ids, p.AllProcessed ids → q.AllProcessed ids) : q.InPlace id c where
  id_eq := h.id_eq
  grounded := h.grounded.imp fun ids hids => hlineage _ ids hids
  lineage hphase := hlineage _ _ (h.lineage hphase)
  ancestors hphase := hprocessed _ (h.ancestors hphase)
  unprocessed := h.unprocessed

/-- Being in place is a matter of identifier, base, stored lineage and phase. -/
theorem InPlace.congr (h : p.InPlace id c) (hid : d.id = c.id) (hbase : d.base = c.base)
    (hancestors : d.ancestors = c.ancestors)
    (hphase : Phase.processed ≤ d.phase ↔ Phase.processed ≤ c.phase) : p.InPlace id d where
  id_eq := hid.trans h.id_eq
  grounded := hbase ▸ h.grounded
  lineage hd := by
    rw [hbase, hancestors]
    exact h.lineage (hphase.1 hd)
  ancestors hd := by
    rw [hancestors]
    exact h.ancestors (hphase.1 hd)
  unprocessed hd := by
    rw [hancestors]
    exact h.unprocessed (Phase.not_le.1 fun hc => Phase.not_le.2 hd (hphase.2 hc))

/-! ## Changes that no class notices -/

theorem Coherent.aside (h : p.Coherent) (hclasses : q.classes = p.classes) : q.Coherent := by
  have hclass (id : ClassId) : q.class? id = p.class? id := by rw [class?, class?, hclasses]
  intro id c hc
  rw [hclass] at hc
  refine (h id c hc).mono (fun next ids hids => ?_) (fun ids hids a ha => ?_)
  · exact hids.congr fun _ _ c hc => ⟨c, (hclass _).trans hc, rfl⟩
  · rw [hclass]
    exact hids a ha

/-! ## A new class -/

theorem Coherent.register (h : p.Coherent) {module : ModuleId} {name nativeName : String}
    (hq : q.classes = p.classes ++ [{ id := ⟨p.classes.length⟩, name, nativeName, module }]) :
    q.Coherent := by
  have hdeclared : ¬Phase.processed ≤ .declared := by decide
  intro id c hc
  rcases class?_append_cases hq hc with hc | ⟨rfl, rfl⟩
  · refine (h id c hc).mono (fun next ids hids => ?_) (fun ids hids a ha => ?_)
    · exact hids.congr fun _ _ c hc => ⟨c, class?_of_append hq hc, rfl⟩
    · obtain ⟨b, hb, hphase⟩ := hids a ha
      exact ⟨b, class?_of_append hq hb, hphase⟩
  · exact ⟨rfl, ⟨[], .root⟩, fun hphase => absurd hphase hdeclared,
      fun hphase => absurd hphase hdeclared, fun _ => rfl⟩

/-! ## A class that keeps its base -/

theorem sameBases_putClass (hc : p.class? id = some c) (hbase : d.base = c.base) :
    p.SameBases (p.putClass id d) := by
  intro id'
  by_cases hid : id' = id
  · rw [hid, class?_putClass_self hc, hc, Option.map_some, Option.map_some, hbase]
  · rw [class?_putClass_of_ne hid]

theorem AllProcessed.putClass {ids : List ClassId} (h : p.AllProcessed ids)
    (hc : p.class? id = some c) (hphase : .processed ≤ c.phase → .processed ≤ d.phase) :
    (p.putClass id d).AllProcessed ids := by
  intro a ha
  obtain ⟨b, hb, hbphase⟩ := h a ha
  by_cases hid : a = id
  · subst hid
    rw [hc] at hb
    cases hb
    exact ⟨d, class?_putClass_self hc d, hphase hbphase⟩
  · exact ⟨b, (class?_putClass_of_ne hid p d).trans hb, hbphase⟩

theorem Coherent.putClass (h : p.Coherent) (hc : p.class? id = some c) (hbase : d.base = c.base)
    (hphase : .processed ≤ c.phase → .processed ≤ d.phase) (hd : p.InPlace id d) :
    (p.putClass id d).Coherent := by
  have hmono {id' : ClassId} {c' : NativeClass} (h' : p.InPlace id' c') :
      (p.putClass id d).InPlace id' c' :=
    h'.mono
      (fun _ _ hids => hids.congr fun _ _ _ ha => (sameBases_putClass hc hbase).class?_eq_some ha)
      fun _ hids => hids.putClass hc hphase
  intro id' c' hc'
  rcases class?_putClass_eq_some hc hc' with ⟨rfl, rfl⟩ | ⟨_, hc'⟩
  · exact hmono hd
  · exact hmono (h id' c' hc')

/-- A class that has just been processed stores the lineage that it was processed with. -/
theorem Coherent.inPlace_processEntry (h : p.Coherent) (hc : p.class? id = some c)
    {chain : List ClassId} (hchain : p.ancestorChain id = .ok chain)
    (hancestors : ∀ a ∈ chain.filterMap p.class?, .processed ≤ a.phase) :
    p.InPlace id (p.processEntry c chain) where
  id_eq := (h id c hc).id_eq
  grounded := (h id c hc).grounded
  lineage _ := h.toGrounded.lineage_of_ancestorChain hc hchain
  ancestors _ a ha := by
    obtain ⟨b, hb⟩ := (h.toGrounded.lineage_of_ancestorChain hc hchain).class?_of_mem ha
    exact ⟨b, hb, hancestors b (List.mem_filterMap.2 ⟨a, ha, hb⟩)⟩
  unprocessed hphase := absurd hphase (by decide : ¬Phase.processed < .processed)

/-! ## A class that gets another base -/

/-- **A base is accepted exactly if it is a class other than this one and not derived from it.** -/
theorem checkBase_some_eq_ok_iff {base : ClassId} {u : Unit} :
    p.checkBase c id (some base) = .ok u ↔
      base ≠ id ∧ ∃ b chain, p.class? base = some b ∧ p.ancestorChain base = .ok chain ∧
        id ∉ chain := by
  rw [checkBase]
  cases hb : p.class? base with
  | none => simp [getClass_of_none hb, bind, Except.bind]
  | some b =>
    rw [getClass_of_class? hb]
    by_cases hid : base = id
    · simp [hid, bind, Except.bind]
    · cases hchain : p.ancestorChain base with
      | error e => simp [isDerivedFrom, hid, hchain, bind, Except.bind]
      | ok chain => simp [isDerivedFrom, hid, hchain, bind, Except.bind, pure, Except.pure]

/-- Lineages that do not meet the class stay as they are. -/
theorem Lineage.of_putClass {next : Option ClassId} {ids : List ClassId} (h : p.Lineage next ids)
    (hid : id ∉ ids) : (p.putClass id d).Lineage next ids := by
  refine h.congr fun a ha c' hc' => ⟨c', ?_, rfl⟩
  have hne : a ≠ id := fun he => hid (he ▸ ha)
  rwa [class?_putClass_of_ne hne]

section Rebased
variable {base : Option ClassId} (hc : p.class? id = some c)
include hc

omit hc in
/-- The accepted base has a lineage, which does not meet the class. -/
theorem Grounded.lineage_of_checkBase (h : p.Grounded) (hbase : p.checkBase c id base = .ok ()) :
    ∃ ids, (p.putClass id { c with base }).Lineage base ids := by
  cases base with
  | none => exact ⟨[], .root⟩
  | some base =>
    obtain ⟨hne, b, chain, hb, hchain, hnot⟩ := checkBase_some_eq_ok_iff.1 hbase
    have hlineage : p.Lineage (some base) (base :: chain) :=
      .base hb (h.lineage_of_ancestorChain hb hchain)
    refine ⟨_, hlineage.of_putClass ?_⟩
    intro hmem
    rcases List.mem_cons.1 hmem with he | hmem
    · exact hne he.symm
    · exact hnot hmem

/-- A walk that met the class goes on from its new base instead. -/
theorem Lineage.rebase {next : Option ClassId} {ids above : List ClassId} (h : p.Lineage next ids)
    (habove : (p.putClass id { c with base }).Lineage base above) :
    ∃ ids', (p.putClass id { c with base }).Lineage next ids' := by
  induction h with
  | root => exact ⟨[], .root⟩
  | @base a ca rest ha _ ih =>
    by_cases hid : a = id
    · subst hid
      exact ⟨_, .base (class?_putClass_self hc _) habove⟩
    · obtain ⟨ids', hids'⟩ := ih
      exact ⟨_, .base ((class?_putClass_of_ne hid p _).trans ha) hids'⟩

/-- **A new base of a declared class leaves stored lineages true**: none of them lists a class that
is still declared. -/
theorem Coherent.rebase (h : p.Coherent) (hphase : c.phase = .declared)
    (hbase : p.checkBase c id base = .ok ()) : (p.putClass id { c with base }).Coherent := by
  obtain ⟨above, habove⟩ := h.toGrounded.lineage_of_checkBase hbase
  -- What is processed cannot be this class.
  have hnot (ids : List ClassId) (hids : p.AllProcessed ids) : id ∉ ids := by
    intro hmem
    obtain ⟨b, hb, hbphase⟩ := hids id hmem
    rw [hc] at hb
    cases hb
    rw [hphase] at hbphase
    exact absurd hbphase (by decide)
  intro id' c' hc'
  rcases class?_putClass_eq_some hc hc' with ⟨rfl, rfl⟩ | ⟨_, hc'⟩
  · have hold := h id' c hc
    refine ⟨hold.id_eq, ⟨above, habove⟩, fun hp => ?_, fun hp => ?_, hold.unprocessed⟩
    · exact absurd (hphase ▸ hp) (by decide)
    · exact absurd (hphase ▸ hp) (by decide)
  · have hold := h id' c' hc'
    refine ⟨hold.id_eq, ?_, fun hp => ?_, fun hp => ?_, hold.unprocessed⟩
    · obtain ⟨ids, hids⟩ := hold.grounded
      exact hids.rebase hc habove
    · exact (hold.lineage hp).of_putClass (hnot _ (hold.ancestors hp))
    · exact (hold.ancestors hp).putClass hc fun hp => hp

end Rebased

/-! ## Every step -/

/-- **What one change of a class preserves.** -/
theorem Coherent.change (h : p.Coherent) (hc : p.class? id = some c) (hd : p.Changes id c d) :
    (p.putClass id d).Coherent := by
  have hold := h id c hc
  cases hd with
  | declare hphase hd =>
    rw [hd]
    exact h.putClass hc rfl (fun hp => hp) (hold.congr rfl rfl rfl Iff.rfl)
  | rebase hphase hbase => exact h.rebase hc hphase hbase
  | attach hphase hd =>
    rw [hd]
    exact h.putClass hc rfl (fun hp => hp) (hold.congr rfl rfl rfl Iff.rfl)
  | advance hd =>
    cases hd with
    | preprocess hphase =>
      have hnot : ¬Phase.processed ≤ c.phase := by
        rw [hphase]
        decide
      have hiff : Phase.processed ≤ .preprocessed ↔ Phase.processed ≤ c.phase :=
        ⟨fun hp => absurd hp (by decide), fun hp => absurd hp hnot⟩
      exact h.putClass hc rfl hiff.2 (hold.congr rfl rfl rfl hiff)
    | process hphase hchain hancestors =>
      exact h.putClass hc rfl (fun _ => Nat.le_refl _) (h.inPlace_processEntry hc hchain hancestors)
    | postprocess hphase =>
      have hiff : Phase.processed ≤ .finalized ↔ Phase.processed ≤ c.phase := by
        rw [hphase]
        decide
      exact h.putClass hc rfl hiff.2 (hold.congr rfl rfl rfl hiff)

/-- **What one step preserves.** -/
theorem Step.coherent (h : Step p q) (hp : p.Coherent) : q.Coherent := by
  cases h with
  | grow h =>
    cases h with
    | aside hclasses _ => exact hp.aside hclasses
    | register hclasses _ => exact hp.register hclasses
  | change hc hd => exact hp.change hc hd

/-- **Every reachable package is coherent.** -/
theorem Reachable.coherent (h : p.Reachable) : p.Coherent :=
  h.invariant coherent_new fun _ _ => Step.coherent

theorem Steps.coherent (h : Steps p q) (hp : p.Coherent) : q.Coherent :=
  h.invariant (fun _ _ => Step.coherent) hp

/-! ## Stored lineages -/

/-- **Processed classes are sealed**: a change writes nothing of their declaration, their base,
their stored lineage or their methods. -/
theorem Changes.of_processed (h : p.Changes id c d) (hphase : .processed ≤ c.phase) :
    .processed ≤ d.phase ∧ c.SameButFinish d := by
  have hdeclared : c.phase ≠ .declared := fun he => absurd (he ▸ hphase) (by decide)
  have hpreprocessed : c.phase ≠ .preprocessed := fun he => absurd (he ▸ hphase) (by decide)
  cases h with
  | declare hc _ => exact absurd hc hdeclared
  | rebase hc _ => exact absurd hc hdeclared
  | attach _ hd =>
    unfold NativeClass.SameButFinish
    rw [hd]
    exact ⟨hphase, rfl⟩
  | advance hd =>
    cases hd with
    | preprocess hc => exact absurd hc hdeclared
    | process hc _ _ => exact absurd hc hpreprocessed
    | postprocess hc => exact ⟨(by decide : Phase.processed ≤ .finalized), rfl⟩

/-- Whatever happens afterwards, a processed class stays processed, and sealed. -/
theorem Steps.class?_of_processed (h : Steps p q) (hc : p.class? id = some c)
    (hphase : .processed ≤ c.phase) :
    ∃ d, q.class? id = some d ∧ .processed ≤ d.phase ∧ c.SameButFinish d := by
  refine h.class? hc (fun p d e hchange hd => ?_) ⟨hphase, .refl c⟩
  obtain ⟨hephase, he⟩ := hchange.of_processed hd.1
  exact ⟨hephase, hd.2.trans he⟩

/-- What a processed class stores are its ancestors, and all of them are processed. -/
theorem Coherent.ancestorChain_eq (h : p.Coherent) (hc : p.class? id = some c)
    (hphase : .processed ≤ c.phase) :
    p.ancestorChain id = .ok c.ancestors ∧ p.AllProcessed c.ancestors :=
  ⟨Package.ancestorChain_eq hc ((h id c hc).lineage hphase), (h id c hc).ancestors hphase⟩

/-- Nodes, and meshes derived from them.  A mesh can be moved by a number of either kind; nodes
choose one of the two, and hide `debug`. -/
def meshHistory : List Operation :=
  [.registerModule "scene", .registerClass ⟨0⟩ "Node" "scene::Node",
    .registerClass ⟨0⟩ "Mesh" "scene::Mesh", .setBase ⟨1⟩ (some ⟨0⟩),
    .setSkip ⟨0⟩ "debug" true, .addOverride ⟨0⟩ { name := "move", signature := ["int"] },
    .addMethod ⟨1⟩ (.constructor "Mesh"), .addMethod ⟨1⟩ (.setter "move" (.ofName "float")),
    .addMethod ⟨1⟩ (.setter "move" (.ofName "int")),
    .addMethod ⟨1⟩ { name := "debug", flags := .empty }]

/-- The package in which nodes and meshes are declared. -/
def meshPackage : Package := Operation.run { name := "scene" } meshHistory

theorem reachable_meshPackage : meshPackage.Reachable := ⟨"scene", {}, meshHistory, by decide, rfl⟩

/-- **Stored lineages are true and stay true.**  In a reachable package a processed class stores
its ancestors as its base links give them now, and all of them are processed; nothing done to the
package later changes what it stores or makes it untrue.  A class not yet processed stores none. -/
theorem Reachable.ancestors_current (h : p.Reachable) (hc : p.class? id = some c) :
    (.processed ≤ c.phase →
      (p.ancestorChain id = .ok c.ancestors ∧ p.AllProcessed c.ancestors) ∧
      ∀ operations : List Operation, (∀ op ∈ operations, ¬op.isReplacement) →
        ∃ d, (Operation.run p operations).class? id = some d ∧ d.ancestors = c.ancestors ∧
          (Operation.run p operations).ancestorChain id = .ok c.ancestors ∧
          (Operation.run p operations).AllProcessed c.ancestors) ∧
    (c.phase < .processed → c.ancestors = []) := by
  refine ⟨fun hphase => ⟨h.coherent.ancestorChain_eq hc hphase, fun operations hops => ?_⟩,
    (h.coherent id c hc).unprocessed⟩
  have hsteps := Operation.run_steps hops p
  obtain ⟨d, hd, hdphase, hsame⟩ := hsteps.class?_of_processed hc hphase
  have hancestors : d.ancestors = c.ancestors := by rw [hsame]
  have hnow := (hsteps.coherent h.coherent).ancestorChain_eq hd hdphase
  rw [hancestors] at hnow
  exact ⟨d, hd, hancestors, hnow⟩

/-- A resolved mesh stores its lineage, and nothing comes of taking its base away. -/
theorem ancestors_current_mesh :
    ∃ c d, (Operation.apply meshPackage .resolveAll).class? ⟨1⟩ = some c ∧
      .processed ≤ c.phase ∧ c.ancestors = [⟨0⟩] ∧
      (Operation.apply meshPackage .resolveAll).ancestorChain ⟨1⟩ = .ok c.ancestors ∧
      (Operation.run (Operation.apply meshPackage .resolveAll) [.setBase ⟨1⟩ none]).class? ⟨1⟩ =
        some d ∧
      d.ancestors = c.ancestors := by
  have hmesh : ((Operation.apply meshPackage .resolveAll).class? ⟨1⟩).any
      (fun c => .processed ≤ c.phase ∧ c.ancestors = [⟨0⟩]) := by decide +kernel
  have hlater : ∀ op ∈ [Operation.setBase ⟨1⟩ none], ¬op.isReplacement := by decide
  have hreachable : (Operation.apply meshPackage .resolveAll).Reachable :=
    reachable_meshPackage.apply (by decide)
  obtain ⟨c, hc, hsome⟩ := (Option.any_eq_true _ _).1 hmesh
  obtain ⟨hphase, hancestors⟩ := of_decide_eq_true hsome
  obtain ⟨⟨hchain, _⟩, hstays⟩ := (hreachable.ancestors_current hc).1 hphase
  obtain ⟨d, hd, hsame, _⟩ := hstays _ hlater
  exact ⟨c, d, hc, hphase, hancestors, hchain, hd, hsame⟩

end ClassBindings.Package
