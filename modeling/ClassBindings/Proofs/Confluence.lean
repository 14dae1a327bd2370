import ClassBindings.Proofs.Completion

/-! # The order of resolution does not matter

A package where two classes can advance can let them do so in either order, with the same result
(`Pass.diamond`).  The one pass that reads other classes is the second, and all that it reads of an
ancestor is the name, the hidden names and the overrides.  None of these changes once the ancestor
is processed, and before that the pass is refused (`Changes.standsIn`).

So all runs of passes on a package can be brought together again (`Passes.join`).  A finalized class
does not change on the way there, so it is the same after every run that finalizes it. -/
namespace ClassBindings

/-! ## What heirs read -/

namespace NativeClass

/-- For its heirs, `d` is as good as `c`: it has come as far, and they inherit the same from it. -/
structure StandsIn (c d : NativeClass) : Prop where
  processed : .processed ≤ c.phase → .processed ≤ d.phase
  name : d.name = c.name
  skips : d.skips = c.skips
  overrides : d.overrides = c.overrides

theorem StandsIn.refl (c : NativeClass) : c.StandsIn c := ⟨fun h => h, rfl, rfl, rfl⟩

/-- Where every class of a list has been processed, so have those that stand in for them. -/
theorem StandsIn.processed_of_forall₂ {as bs : List NativeClass} (h : List.Forall₂ StandsIn as bs)
    (has : ∀ a ∈ as, .processed ≤ a.phase) : ∀ b ∈ bs, .processed ≤ b.phase := by
  induction h with
  | nil => exact fun b hb => nomatch hb
  | cons hab _ ih =>
    obtain ⟨ha, hrest⟩ := List.forall_mem_cons.1 has
    exact List.forall_mem_cons.2 ⟨hab.processed ha, ih hrest⟩

/-- What is still written of a processed class is not handed down. -/
theorem SameButFinish.standsIn {c d : NativeClass} (h : c.SameButFinish d)
    (hphase : .processed ≤ d.phase) : c.StandsIn d := by
  refine ⟨fun _ => hphase, ?_, ?_, ?_⟩ <;> rw [h]

end NativeClass

open NativeClass (StandsIn)

namespace Inherited

theorem offered_congr {c d : NativeClass} (h : c.StandsIn d) (claimed : List String) :
    offered claimed d = offered claimed c := by
  rw [offered, offered, h.overrides]

theorem overridesFrom_congr {as bs : List NativeClass} (h : List.Forall₂ StandsIn as bs)
    (claimed : List String) : overridesFrom claimed bs = overridesFrom claimed as := by
  induction h generalizing claimed with
  | nil => rfl
  | cons hab _ ih => rw [overridesFrom, overridesFrom, offered_congr hab, ih]

theorem collect_congr {as bs : List NativeClass} (h : List.Forall₂ StandsIn as bs)
    (c : NativeClass) : collect c bs = collect c as := by
  have hskips : bs.flatMap (·.skips) = as.flatMap (·.skips) := by
    induction h with
    | nil => rfl
    | cons hab _ ih => rw [List.flatMap_cons, List.flatMap_cons, hab.skips, ih]
  rw [collect, collect, hskips, overridesFrom_congr h]

end Inherited

namespace Package

variable {p q r : Package} {id id' : ClassId} {c c' d d' e : NativeClass}

theorem inObjectHierarchy_congr {as bs : List NativeClass} (h : List.Forall₂ StandsIn as bs)
    (hoptions : q.options = p.options) (c : NativeClass) :
    q.inObjectHierarchy c bs = p.inObjectHierarchy c as := by
  have hbases : bs.any (fun a => p.options.isObjectRoot a.name) =
      as.any (fun a => p.options.isObjectRoot a.name) := by
    induction h with
    | nil => rfl
    | cons hab _ ih => rw [List.any_cons, List.any_cons, hab.name, ih]
  rw [inObjectHierarchy, inObjectHierarchy, hoptions, List.any_cons, List.any_cons, hbases]

/-- **Of its ancestors, what a class becomes depends on what they hand down**, and nothing else. -/
theorem processEntry_congr {chain : List ClassId} (hoptions : q.options = p.options)
    (h : List.Forall₂ StandsIn (chain.filterMap p.class?) (chain.filterMap q.class?))
    (c : NativeClass) : q.processEntry c chain = p.processEntry c chain := by
  rw [processEntry, processEntry, hoptions, inObjectHierarchy_congr h hoptions,
    Inherited.collect_congr h]

/-! ## Passes on two classes -/

/-- A processed class that changes hands down what it did before. -/
theorem Changes.standsIn (h : p.Changes id c d) (hphase : .processed ≤ c.phase) :
    c.StandsIn d := by
  obtain ⟨hdphase, hd⟩ := h.of_processed hphase
  exact hd.standsIn hdphase

/-- Ancestors keep what they hand down when one of them is replaced by a class as good. -/
theorem forall₂_standsIn_putClass {chain : List ClassId} (hc : p.class? id = some c)
    (h : id ∈ chain → c.StandsIn d) :
    List.Forall₂ StandsIn (chain.filterMap p.class?)
      (chain.filterMap (p.putClass id d).class?) := by
  induction chain with
  | nil => exact .nil
  | cons a rest ih =>
    have hrest := ih fun hmem => h (List.mem_cons_of_mem _ hmem)
    by_cases ha : a = id
    · subst ha
      rw [List.filterMap_cons_some hc, List.filterMap_cons_some (class?_putClass_self hc d)]
      exact .cons (h List.mem_cons_self) hrest
    · have hsame := class?_putClass_of_ne ha p d
      cases hb : p.class? a with
      | none =>
        rw [List.filterMap_cons_none hb, List.filterMap_cons_none (hsame.trans hb)]
        exact hrest
      | some b =>
        rw [List.filterMap_cons_some hb, List.filterMap_cons_some (hsame.trans hb)]
        exact .cons (.refl b) hrest

/-- **A pass on one class leaves the passes on the others as they were.** -/
theorem Advances.putClass (h : p.Advances id c d) (hc' : p.class? id' = some c')
    (hd' : p.Advances id' c' d') : (p.putClass id' d').Advances id c d := by
  cases h with
  | preprocess hphase => exact .preprocess hphase
  | postprocess hphase => exact .postprocess hphase
  | @process chain hphase hchain hancestors =>
    -- If the other class is an ancestor, it has been processed, or this pass would be refused.
    have hstand : id' ∈ chain → c'.StandsIn d' := fun hmem =>
      (Changes.advance hd').standsIn (hancestors c' (List.mem_filterMap.2 ⟨id', hmem, hc'⟩))
    have hforall := forall₂_standsIn_putClass hc' hstand
    have hchain' : (p.putClass id' d').ancestorChain id = .ok chain :=
      (ancestorChain_congr (sameBases_putClass hc' hd'.base_eq) id).trans hchain
    have hancestors' := StandsIn.processed_of_forall₂ hforall hancestors
    rw [← processEntry_congr (options_putClass p id' d') hforall c]
    exact .process hphase hchain' hancestors'

/-- The phase of a class says what it advances to. -/
theorem Advances.unique (h : p.Advances id c d) (h' : p.Advances id c e) : d = e := by
  cases h with
  | preprocess hphase => exact (h'.of_declared hphase).symm
  | process hphase hchain _ =>
    obtain ⟨chain', hchain', _, rfl⟩ := h'.of_preprocessed hphase
    rw [hchain] at hchain'
    cases hchain'
    rfl
  | postprocess hphase => exact (h'.of_processed hphase).symm

theorem putClass_comm (h : id ≠ id') (p : Package) (c c' : NativeClass) :
    (p.putClass id c).putClass id' c' = (p.putClass id' c').putClass id c := by
  have hne : id.index ≠ id'.index := fun he => h (by cases id; cases id'; simp_all)
  rw [putClass, putClass, putClass, putClass, List.set_comm _ _ hne]

/-- **Two passes commute**, unless they are the same. -/
theorem Pass.diamond (h : Pass p q) (h' : Pass p r) : q = r ∨ ∃ s, Pass q s ∧ Pass r s := by
  obtain ⟨hc, hd⟩ := h
  obtain ⟨hc', hd'⟩ := h'
  rename_i id c d id' c' d'
  by_cases hid : id = id'
  · subst hid
    rw [hc] at hc'
    cases hc'
    exact Or.inl (by rw [hd.unique hd'])
  · refine Or.inr ⟨(p.putClass id d).putClass id' d', ?_, ?_⟩
    · exact .advance ((class?_putClass_of_ne (Ne.symm hid) p d).trans hc') (hd'.putClass hc hd)
    · rw [putClass_comm hid]
      exact .advance ((class?_putClass_of_ne hid p d').trans hc) (hd.putClass hc' hd')

/-- **Any two runs of passes can be brought together again.** -/
theorem Passes.join (h : Passes p q) (h' : Passes p r) : ∃ s, Passes q s ∧ Passes r s := by
  refine Relation.church_rosser (fun a b c hab hac => ?_) h h'
  rcases hab.diamond hac with rfl | ⟨s, hbs, hcs⟩
  · exact ⟨b, .refl, .refl⟩
  · exact ⟨s, .single hbs, .single hcs⟩

/-! ## Finalized classes -/

/-- Whatever happens afterwards, a finalized class stays as it is. -/
theorem Steps.class?_of_finalized (h : Steps p q) (hc : p.class? id = some c)
    (hphase : c.phase = .finalized) : q.class? id = some c := by
  obtain ⟨d, hd, rfl⟩ := h.class? (motive := (· = c)) hc
    (fun _ _ _ hchange he => absurd hphase (he ▸ hchange.not_finalized)) rfl
  exact hd

theorem Passes.eq_of_both_finalized (hq : Passes p q) (hr : Passes p r)
    (hc : q.class? id = some c) (hcphase : c.phase = .finalized) (hd : r.class? id = some d)
    (hdphase : d.phase = .finalized) : d = c := by
  obtain ⟨s, hqs, hrs⟩ := hq.join hr
  have hcs := hqs.steps.class?_of_finalized hc hcphase
  rw [hrs.steps.class?_of_finalized hd hdphase] at hcs
  exact Option.some.inj hcs

/-- **The outcome does not depend on the schedule.**  Once a run of resolution has finalized a class
of a reachable package, every other run from there that finalizes the class makes the same of it,
and so does resolving the package as a whole. -/
theorem Reachable.resolution_confluent (h : p.Reachable) {first : List Operation}
    (hfirst : ∀ op ∈ first, op.isResolution)
    (hc : (Operation.run p first).class? id = some c) (hphase : c.phase = .finalized) :
    (∀ second : List Operation, (∀ op ∈ second, op.isResolution) →
      ∀ d, (Operation.run p second).class? id = some d → d.phase = .finalized → d = c) ∧
    (Operation.apply p .resolveAll).class? id = some c := by
  have hrun := Operation.run_passes hfirst p
  refine ⟨fun second hsecond d hd hdphase =>
    hrun.eq_of_both_finalized (Operation.run_passes hsecond p) hc hphase hd hdphase, ?_⟩
  obtain ⟨report, q, hall, hpq, hresolved, _⟩ := h.coherent.resolveAll_ok
  have hq : Operation.apply p .resolveAll = q := by
    rw [Operation.apply, hall]
    rfl
  obtain ⟨b, hb, _⟩ := hrun.sameBases.symm.class?_eq_some hc
  obtain ⟨d, hd, _⟩ := hpq.sameBases.class?_eq_some hb
  rw [hq, hd, hrun.eq_of_both_finalized hpq hc hphase hd (hresolved.finalized id d hd)]

/-- Meshes processed too early, refused, and processed again end as they do when nodes and meshes
are resolved one after the other. -/
theorem resolution_confluent_mesh :
    ∃ c, (Operation.run meshPackage [.process ⟨1⟩, .preprocess ⟨1⟩, .process ⟨1⟩,
        .resolveClass ⟨0⟩, .resolveClass ⟨1⟩]).class? ⟨1⟩ = some c ∧ c.phase = .finalized ∧
      (Operation.run meshPackage [.resolveClass ⟨0⟩, .resolveClass ⟨1⟩]).class? ⟨1⟩ = some c ∧
      (Operation.apply meshPackage .resolveAll).class? ⟨1⟩ = some c := by
  have hfirst : ((Operation.run meshPackage [.process ⟨1⟩, .preprocess ⟨1⟩, .process ⟨1⟩,
      .resolveClass ⟨0⟩, .resolveClass ⟨1⟩]).class? ⟨1⟩).any (·.phase = .finalized) := by
    decide +kernel
  have hsecond : ((Operation.run meshPackage
      [.resolveClass ⟨0⟩, .resolveClass ⟨1⟩]).class? ⟨1⟩).any (·.phase = .finalized) := by
    decide +kernel
  obtain ⟨c, hc, hsome⟩ := (Option.any_eq_true _ _).1 hfirst
  have hphase := of_decide_eq_true hsome
  obtain ⟨d, hd, hsome⟩ := (Option.any_eq_true _ _).1 hsecond
  have hdphase := of_decide_eq_true hsome
  obtain ⟨hsame, hall⟩ := reachable_meshPackage.resolution_confluent (by decide) hc hphase
  have hdc : d = c := hsame _ (by decide) d hd hdphase
  exact ⟨c, hc, hphase, hdc ▸ hd, hall⟩

end Package

end ClassBindings
