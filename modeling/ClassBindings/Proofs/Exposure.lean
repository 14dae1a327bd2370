import ClassBindings.Proofs.Confluence
import ClassBindings.Proofs.Survival

/-! # The methods of a resolved class

Between the first step on a class and the second, and after it, all sorts of things may happen to a
package.  What they leave of a declaration is a `Sequel` of it: the tidied class, or the class with
the methods that it exposes, given the ancestors that it stores.  From the moment a class is no
longer declared, every step of the package keeps it a sequel of what was declared
(`Step.sequel`), because ancestors stay as good as they were once they are processed.

So the methods of a resolved class can be read off the declaration that it had when resolution
reached it, and off the ancestors that it has now. -/
namespace ClassBindings.Package

variable {p q r : Package} {id : ClassId} {c d e : NativeClass}
  {resolve : String → Option TypeHash}

/-! ## What steps leave alone -/

theorem Step.options_eq (h : Step p q) : q.options = p.options := by
  cases h with
  | grow h =>
    cases h with
    | aside _ hoptions => exact hoptions
    | register _ hoptions => exact hoptions
  | change _ _ => rfl

theorem Steps.options_eq (h : Steps p q) : q.options = p.options :=
  h.invariant (motive := (·.options = p.options)) (fun _ _ hstep => hstep.options_eq.trans) rfl

theorem Passes.types_eq (h : Passes p q) : q.types = p.types := by
  induction h with
  | refl => rfl
  | tail _ hpass ih =>
    cases hpass
    exact ih

/-- **Processed classes keep what they hand down**, whatever steps come. -/
theorem Steps.forall₂_standsIn (h : Steps p q) {ids : List ClassId} (hids : p.AllProcessed ids) :
    List.Forall₂ NativeClass.StandsIn (ids.filterMap p.class?) (ids.filterMap q.class?) := by
  induction ids with
  | nil => exact .nil
  | cons a rest ih =>
    obtain ⟨b, hb, hphase⟩ := hids a List.mem_cons_self
    obtain ⟨b', hb', hphase', hsame⟩ := h.class?_of_processed hb hphase
    rw [List.filterMap_cons_some hb, List.filterMap_cons_some hb']
    exact .cons (hsame.standsIn hphase') (ih fun a ha => hids a (List.mem_cons_of_mem _ ha))

theorem Step.forall₂_standsIn (h : Step p q) {ids : List ClassId} (hids : p.AllProcessed ids) :
    List.Forall₂ NativeClass.StandsIn (ids.filterMap p.class?) (ids.filterMap q.class?) :=
  Steps.forall₂_standsIn (.single h) hids

/-- The ancestors with which a class is processed are classes, and all of them are processed. -/
theorem Coherent.allProcessed_of_chain (h : p.Coherent) (hc : p.class? id = some c)
    {chain : List ClassId} (hchain : p.ancestorChain id = .ok chain)
    (hancestors : ∀ a ∈ chain.filterMap p.class?, .processed ≤ a.phase) :
    p.AllProcessed chain :=
  (h.inPlace_processEntry hc hchain hancestors).ancestors (by decide : Phase.processed ≤ .processed)

/-! ## Sequels of a declaration -/

/-- In `q`, the class `d` is what resolution has made so far of the declaration `c`. -/
inductive Sequel (resolve : String → Option TypeHash) (c : NativeClass) (q : Package)
    (d : NativeClass) : Prop
  | tidied (h : (c.preprocess resolve q.options).SameButProperties d) : Sequel resolve c q d
  | processed (hphase : .processed ≤ d.phase)
      (h : d.methods = (c.preprocess resolve q.options).settled (d.ancestors.filterMap q.class?)) :
      Sequel resolve c q d

/-- The methods that processing leaves depend on what the ancestors hand down. -/
theorem settled_congr {as bs : List NativeClass} (h : List.Forall₂ NativeClass.StandsIn as bs) :
    c.settled bs = c.settled as := by
  rw [NativeClass.settled, NativeClass.settled, Inherited.collect_congr h]

/-- Processing a tidied class reads nothing of it that may have been written since. -/
theorem methods_processEntry (h : c.SameButProperties d) (chain : List ClassId) :
    (p.processEntry d chain).methods = c.settled (chain.filterMap p.class?) := by
  rw [h]
  rfl

section Followed
variable (hq : q.Coherent) (hd : q.class? id = some d) (hstep : Step q r)
include hq hd hstep

/-- The methods of a processed class are those that its ancestors leave it, as they are now. -/
theorem Sequel.of_processed (hphase : .processed ≤ d.phase)
    (h : d.methods = (c.preprocess resolve q.options).settled (d.ancestors.filterMap q.class?))
    (hephase : .processed ≤ e.phase) (he : d.SameButFinish e) : Sequel resolve c r e := by
  have hmethods : e.methods = d.methods := by rw [he]
  have hancestors : e.ancestors = d.ancestors := by rw [he]
  have hstand := hstep.forall₂_standsIn ((hq id d hd).ancestors hphase)
  refine .processed hephase ?_
  rw [hmethods, hancestors, h, hstep.options_eq, settled_congr hstand]

/-- A class that a step leaves alone is what it was. -/
theorem Sequel.stay (h : Sequel resolve c q d) : Sequel resolve c r d := by
  cases h with
  | tidied h =>
    rw [← hstep.options_eq] at h
    exact .tidied h
  | processed hphase h => exact .of_processed hq hd hstep hphase h hphase (.refl d)

/-- **What one change of the class preserves.** -/
theorem Sequel.change (h : Sequel resolve c q d) (hchange : q.Changes id d e) :
    Sequel resolve c r e := by
  cases h with
  | tidied h =>
    have hphase : d.phase = .preprocessed := by rw [h]; rfl
    rcases hchange.of_preprocessed hphase with he | ⟨chain, hchain, hancestors, rfl⟩
    · rw [← hstep.options_eq] at h
      exact .tidied (h.trans he)
    · -- The step has processed the class, and the ancestors are as good after it as before.
      have hstand := hstep.forall₂_standsIn (hq.allProcessed_of_chain hd hchain hancestors)
      refine .processed (by decide : Phase.processed ≤ .processed) ?_
      show (q.processEntry d chain).methods =
        (c.preprocess resolve r.options).settled (chain.filterMap r.class?)
      rw [methods_processEntry h, hstep.options_eq, settled_congr hstand]
  | processed hphase h =>
    obtain ⟨hephase, he⟩ := hchange.of_processed hphase
    exact .of_processed hq hd hstep hphase h hephase he

/-- **What one step preserves.** -/
theorem Step.sequel (h : Sequel resolve c q d) :
    ∃ e, r.class? id = some e ∧ Sequel resolve c r e := by
  obtain ⟨e, he, rfl | hchange⟩ := hstep.class? hd
  · exact ⟨_, he, h.stay hq hd hstep⟩
  · exact ⟨e, he, h.change hq hd hstep hchange⟩

end Followed

/-- **What a run preserves.** -/
theorem Steps.sequel (h : Steps q r) (hq : q.Coherent) (hd : q.class? id = some d)
    (hsequel : Sequel resolve c q d) : ∃ e, r.class? id = some e ∧ Sequel resolve c r e := by
  induction h with
  | refl => exact ⟨d, hd, hsequel⟩
  | tail hsteps hstep ih =>
    obtain ⟨e, he, hsequel⟩ := ih
    exact hstep.sequel (Steps.coherent hsteps hq) he hsequel

/-- **A run of passes leaves a declared class as it is, or tidies it** at some point, before which
nothing has been done to it. -/
theorem Passes.declared_cases (h : Passes p q) (hc : p.class? id = some c)
    (hphase : c.phase = .declared) :
    q.class? id = some c ∨ ∃ r, Passes p r ∧
      r.class? id = some (c.preprocess p.types.resolve p.options) ∧ Passes r q := by
  induction h with
  | refl => exact Or.inl hc
  | @tail q r hpasses hpass ih =>
    rcases ih with hq | ⟨r', hr', hcr', hrest⟩
    · cases hpass with
      | @advance id' c' d' hc' hd' =>
        by_cases hid : id = id'
        · subst hid
          rw [hq] at hc'
          cases hc'
          refine Or.inr ⟨_, hpasses.tail (.advance hq hd'), ?_, .refl⟩
          rw [class?_putClass_self hq, hd'.of_declared hphase, Passes.types_eq hpasses,
            (Passes.steps hpasses).options_eq]
        · exact Or.inl ((class?_putClass_of_ne hid q d').trans hq)
    · exact Or.inr ⟨r', hr', hcr', hrest.tail hpass⟩

/-- A run of passes leaves a declaration as it is, or a sequel of it. -/
theorem Passes.sequel (h : Passes p q) (hp : p.Coherent) (hc : p.class? id = some c)
    (hphase : c.phase = .declared) :
    q.types = p.types ∧ (q.class? id = some c ∨
      ∃ d, q.class? id = some d ∧ Sequel p.types.resolve c q d) := by
  refine ⟨h.types_eq, ?_⟩
  rcases h.declared_cases hc hphase with hq | ⟨r, hr, hcr, hrest⟩
  · exact Or.inl hq
  · refine Or.inr (hrest.steps.sequel (hr.coherent hp) hcr ?_)
    rw [← hr.steps.options_eq]
    exact .tidied rfl

/-! ## Methods of a resolved class -/

/-- **A resolved class exposes what its declaration says.**  Let resolution take a class of a
reachable package out of its declaration, and let anything happen after that.  Once the class is
processed its methods are the exposed ones of that declaration, given its ancestors, in the order
of the declaration and changed by marks of accessors only. -/
theorem Reachable.exposed_methods (h : p.Reachable) (hc : p.class? id = some c)
    (hphase : c.phase = .declared) {resolution later : List Operation}
    (hresolution : ∀ op ∈ resolution, op.isResolution)
    (hd : (Operation.run p resolution).class? id = some d) (hdphase : d.phase ≠ .declared)
    (hlater : ∀ op ∈ later, ¬op.isReplacement)
    (hq : q = Operation.run p (resolution ++ later)) (he : q.class? id = some e)
    (hephase : .processed ≤ e.phase) :
    ∃ chain, q.ancestorChain id = .ok chain ∧
      (c.exposed p.types.resolve (chain.filterMap q.class?)).Sublist c.methods ∧
      e.methods =
        (c.exposed p.types.resolve (chain.filterMap q.class?)).map p.options.marked := by
  have hpasses := Operation.run_passes hresolution p
  have hsteps := Operation.run_steps hlater (Operation.run p resolution)
  have hcoherent := hpasses.coherent h.coherent
  obtain ⟨_, hsame | ⟨d', hd', hsequel⟩⟩ := hpasses.sequel h.coherent hc hphase
  · rw [hsame] at hd
    cases hd
    exact absurd hphase hdphase
  rw [Operation.run_append] at hq
  subst hq
  obtain ⟨e', he', hsequel⟩ := hsteps.sequel hcoherent hd' hsequel
  rw [he'] at he
  cases he
  have hoptions := (hpasses.steps.trans _ _ _ hsteps).options_eq
  cases hsequel with
  | tidied htidied =>
    have hpreprocessed : e.phase = .preprocessed := by rw [htidied]; rfl
    exact absurd (hpreprocessed ▸ hephase) (by decide)
  | processed _ hmethods =>
    have hchain := ((hsteps.coherent hcoherent).ancestorChain_eq he' hephase).1
    refine ⟨e.ancestors, hchain, NativeClass.exposed_sublist .., ?_⟩
    rw [hmethods, NativeClass.settled_preprocess, hoptions]

/-- Of the four methods of a mesh the constructor and the chosen way to move are left. -/
theorem exposed_methods_mesh :
    ∃ (c e : NativeClass) (chain : List ClassId),
      meshPackage.class? ⟨1⟩ = some c ∧ c.methods.length = 4 ∧
      (Operation.run meshPackage [.preprocess ⟨1⟩, .resolveAll]).class? ⟨1⟩ = some e ∧
      e.methods.map (·.name) = ["Mesh", "move"] ∧
      e.methods = (c.exposed meshPackage.types.resolve (chain.filterMap (Operation.run meshPackage
        [.preprocess ⟨1⟩, .resolveAll]).class?)).map meshPackage.options.marked := by
  have hdeclared : (meshPackage.class? ⟨1⟩).any
      (fun c => c.phase = .declared ∧ c.methods.length = 4) := by decide +kernel
  have hbegun : ((Operation.run meshPackage [.preprocess ⟨1⟩]).class? ⟨1⟩).any
      (·.phase ≠ .declared) := by decide +kernel
  have hresolved : ((Operation.run meshPackage [.preprocess ⟨1⟩, .resolveAll]).class? ⟨1⟩).any
      (fun e : NativeClass => .processed ≤ e.phase ∧
        e.methods.map (·.name) = ["Mesh", "move"]) := by decide +kernel
  have hresolution : ∀ op ∈ [Operation.preprocess ⟨1⟩], op.isResolution := by decide
  have hlater : ∀ op ∈ [Operation.resolveAll], ¬op.isReplacement := by decide
  obtain ⟨c, hc, hsome⟩ := (Option.any_eq_true _ _).1 hdeclared
  obtain ⟨hphase, hlength⟩ := of_decide_eq_true hsome
  obtain ⟨d, hd, hsome⟩ := (Option.any_eq_true _ _).1 hbegun
  have hdphase := of_decide_eq_true hsome
  obtain ⟨e, he, hsome⟩ := (Option.any_eq_true _ _).1 hresolved
  obtain ⟨hephase, hnames⟩ := of_decide_eq_true hsome
  obtain ⟨chain, _, _, hmethods⟩ := reachable_meshPackage.exposed_methods hc hphase hresolution hd
    hdphase hlater rfl he hephase
  exact ⟨c, e, chain, hc, hlength, he, hnames, hmethods⟩

end ClassBindings.Package
