import ClassBindings.Proofs.Exposure
import ClassBindings.Proofs.Findings
import ClassBindings.Proofs.Seal

/-! # The reports on a finalized class

Accessors may be attached to a class by hand, before resolution reaches it and after, and each one
that loses its slot is reported.  As long as the class is not processed none of this matters: to
process a class is to build its properties anew and to take back what was reported on accessors, so
that it does not see what was attached (`NativeClass.process_congr`).  Once the class is processed
nothing takes a report back.

So if nothing is attached to a class while it is processed (`Operation.AllSpare`), what becomes of
it `Follows` from its declaration, operation by operation, whatever else happens to the package
(`Operation.Effect.follows`).  What it reports when it is finalized are then the findings of that
declaration (`Package.Reachable.diagnostics_finalized`). -/
namespace ClassBindings

/-! ## What is attached by hand -/

namespace NativeClass

variable {c d e : NativeClass}

/-- The classes differ at most in properties and in what was reported on accessors. -/
structure SameButAccessors (c d : NativeClass) : Prop where
  same : c.SameButProperties d
  diagnostics : d.diagnostics.filter (!·.isDuplicateAccessor) =
    c.diagnostics.filter (!·.isDuplicateAccessor)

theorem SameButAccessors.refl (c : NativeClass) : c.SameButAccessors c := ⟨.refl c, rfl⟩

theorem SameButAccessors.phase_eq (h : c.SameButAccessors d) : d.phase = c.phase := by
  rw [h.same]

theorem SameButAccessors.trans (h : c.SameButAccessors d) (h' : d.SameButAccessors e) :
    c.SameButAccessors e := ⟨h.same.trans h'.same, h'.diagnostics.trans h.diagnostics⟩

/-- What attaching reports is on accessors. -/
theorem isDuplicateAccessor_of_attached {claim : Observation} {replaced : Option MethodId}
    {report : Diagnostic} {methods : List Method}
    (h : report ∈ (claim.report? methods replaced).toList) : report.isDuplicateAccessor := by
  rw [Option.mem_toList] at h
  cases replaced with
  | none => cases h
  | some replaced =>
    rw [Observation.report?] at h
    split at h <;> cases h
    rfl

theorem sameButAccessors_attached (accessor : MethodId) (claim : Observation) (c : NativeClass) :
    c.SameButAccessors (c.attached accessor claim) := by
  refine ⟨sameButProperties_attached accessor claim c, ?_⟩
  have hnone : ∀ replaced, (claim.report? c.methods replaced).toList.filter
      (!·.isDuplicateAccessor) = [] := fun _ =>
    List.filter_eq_nil_iff.2 fun d hd => by simp [isDuplicateAccessor_of_attached hd]
  rw [attached, List.filter_append, hnone, List.append_nil]

/-- **Processing does not see what was attached.** -/
theorem process_congr (h : c.SameButAccessors d) (options : Options) (chain : List ClassId)
    (inObjectHierarchy : Bool) (inherited : Inherited) :
    d.process options chain inObjectHierarchy inherited =
      c.process options chain inObjectHierarchy inherited := by
  have hreports := h.diagnostics
  rw [h.same]
  simp only [process, settleMethods, rebuildProperties, List.filter_append, hreports]

end NativeClass

namespace Package

variable {p q r : Package} {id : ClassId} {c d e : NativeClass}
  {resolve : String → Option TypeHash}

theorem processEntry_of_sameButAccessors (h : c.SameButAccessors d) (p : Package)
    (chain : List ClassId) : p.processEntry d chain = p.processEntry c chain := by
  have hname : p.inObjectHierarchy d (chain.filterMap p.class?) =
      p.inObjectHierarchy c (chain.filterMap p.class?) := by
    rw [h.same]
    rfl
  have hcollect : Inherited.collect d (chain.filterMap p.class?) =
      Inherited.collect c (chain.filterMap p.class?) := by
    rw [h.same]
    rfl
  rw [processEntry, processEntry, hname, hcollect]
  exact NativeClass.process_congr h _ _ _ _

/-! ## Following from a declaration -/

/-- In `q`, the class `d` has gone its way from the declaration `c`, with no more done to it than
accessors attached before it was processed. -/
inductive Follows (resolve : String → Option TypeHash) (c : NativeClass) (q : Package) :
    NativeClass → Prop
  | tidied {d : NativeClass} (h : (c.preprocess resolve q.options).SameButAccessors d) :
      Follows resolve c q d
  | processed {d : NativeClass}
      (h : d = q.processEntry (c.preprocess resolve q.options) d.ancestors) : Follows resolve c q d
  | finalized {d : NativeClass}
      (h : d = q.processEntry (c.preprocess resolve q.options) d.ancestors) :
      Follows resolve c q d.postprocess

theorem phase_eq_of_processed {b : NativeClass} {chain : List ClassId}
    (h : d = q.processEntry b chain) : d.phase = .processed := by
  rw [h]
  rfl

theorem Follows.phase_ne_declared (h : Follows resolve c q d) : d.phase ≠ .declared := by
  intro hdeclared
  cases h with
  | tidied h => cases h.phase_eq.symm.trans hdeclared
  | processed h => cases (phase_eq_of_processed h).symm.trans hdeclared
  | finalized h => cases hdeclared

section Followed
variable (hq : q.Coherent) (hd : q.class? id = some d) (hsteps : Steps q r)
include hq hd hsteps

/-- What a processed class became it would become now. -/
theorem Coherent.processEntry_eq (hphase : .processed ≤ d.phase) (b : NativeClass) :
    r.processEntry b d.ancestors = q.processEntry b d.ancestors :=
  processEntry_congr hsteps.options_eq (hsteps.forall₂_standsIn ((hq id d hd).ancestors hphase)) b

/-- A class that is left alone still follows, whatever has become of its ancestors. -/
theorem Follows.stay (h : Follows resolve c q d) : Follows resolve c r d := by
  cases h with
  | tidied h =>
    rw [← hsteps.options_eq] at h
    exact .tidied h
  | processed h =>
    have hphase := phase_eq_of_processed h
    refine .processed (h.trans ?_)
    rw [hsteps.options_eq, hq.processEntry_eq hd hsteps (hphase ▸ Nat.le_refl _)]
  | @finalized b h =>
    refine .finalized (h.trans ?_)
    rw [hsteps.options_eq]
    exact (hq.processEntry_eq hd hsteps (by decide : Phase.processed ≤ .finalized) _).symm

end Followed

/-- **What one pass preserves.** -/
theorem Pass.follows (hpass : Pass q r) (hq : q.Coherent) (hd : q.class? id = some d)
    (h : Follows resolve c q d) : ∃ e, r.class? id = some e ∧ Follows resolve c r e := by
  have hstep : Steps q r := .single hpass.step
  cases hpass with
  | @advance id' d' e hd' hadvances =>
    by_cases hid : id = id'
    · subst hid
      rw [hd] at hd'
      cases hd'
      refine ⟨e, class?_putClass_self hd e, ?_⟩
      cases h with
      | tidied h =>
        obtain ⟨chain, hchain, hancestors, rfl⟩ := hadvances.of_preprocessed h.phase_eq
        -- The class has been processed as the tidied declaration would be, then as now.
        have hstand := hstep.forall₂_standsIn (hq.allProcessed_of_chain hd hchain hancestors)
        have hnow := processEntry_congr hstep.options_eq hstand (c.preprocess resolve q.options)
        exact .processed ((processEntry_of_sameButAccessors h q chain).trans hnow.symm)
      | processed h =>
        have hphase := phase_eq_of_processed h
        obtain rfl := hadvances.of_processed hphase
        refine .finalized (h.trans ?_)
        rw [hstep.options_eq, hq.processEntry_eq hd hstep (hphase ▸ Nat.le_refl _)]
      | finalized h => exact absurd rfl hadvances.not_finalized
    · exact ⟨d, (class?_putClass_of_ne hid q e).trans hd, h.stay hq hd hstep⟩

theorem Passes.follows (hpasses : Passes q r) (hq : q.Coherent) (hd : q.class? id = some d)
    (h : Follows resolve c q d) : ∃ e, r.class? id = some e ∧ Follows resolve c r e := by
  induction hpasses with
  | refl => exact ⟨d, hd, h⟩
  | tail hbefore hpass ih =>
    obtain ⟨e, he, h⟩ := ih
    exact hpass.follows (Passes.coherent hbefore hq) he h

/-- A run of passes leaves a declaration as it is, or something that follows from it. -/
theorem Passes.follows_of_declared (h : Passes p q) (hp : p.Coherent) (hc : p.class? id = some c)
    (hphase : c.phase = .declared) :
    q.class? id = some c ∨ ∃ d, q.class? id = some d ∧ Follows p.types.resolve c q d := by
  rcases h.declared_cases hc hphase with hq | ⟨r, hr, hcr, hrest⟩
  · exact Or.inl hq
  · refine Or.inr (hrest.follows (hr.coherent hp) hcr ?_)
    rw [← hr.steps.options_eq]
    exact .tidied (.refl _)

end Package

/-! ## Whole histories -/

namespace Operation

open Package

variable {q r : Package} {id : ClassId} {c d : NativeClass} {op : Operation}
  {resolve : String → Option TypeHash}

/-- The operation does not attach an accessor to the class while it is processed. -/
def Spares (id : ClassId) (q : Package) (op : Operation) : Prop :=
  ∀ accessor options d, op = .attachAccessor id accessor options → q.class? id = some d →
    d.phase ≠ .processed

/-- **What one operation preserves.** -/
theorem Effect.follows (heffect : Effect q op r) (hq : q.Coherent) (hd : q.class? id = some d)
    (hspares : op.Spares id q) (h : Follows resolve c q d) :
    ∃ e, r.class? id = some e ∧ Follows resolve c r e := by
  rcases heffect.of_sealed hd h.phase_ne_declared with
    hsame | ⟨_, hpasses⟩ | ⟨accessor, options, claim, hop, hfinal, _, rfl⟩
  · exact ⟨d, hsame, h.stay hq hd heffect.steps⟩
  · exact hpasses.follows hq hd h
  · refine ⟨_, class?_putClass_self hd _, ?_⟩
    cases h with
    | tidied h => exact .tidied (h.trans (NativeClass.sameButAccessors_attached accessor claim d))
    | processed h =>
      have hphase := phase_eq_of_processed h
      exact absurd hphase (hspares accessor options d hop hd)
    | finalized h => exact absurd rfl hfinal

/-- No accessor is attached to the class while it is processed. -/
def AllSpare (id : ClassId) (q : Package) (operations : List Operation) : Prop :=
  ∀ before op after, operations = before ++ op :: after → op.Spares id (run q before)

theorem allSpare_nil (id : ClassId) (q : Package) : AllSpare id q [] := by
  intro before op after hsplit
  exact absurd hsplit.symm (by simp)

theorem allSpare_cons {rest : List Operation} :
    AllSpare id q (op :: rest) ↔ op.Spares id q ∧ AllSpare id (op.apply q) rest := by
  constructor
  · intro h
    exact ⟨h [] op rest rfl, fun before op' after hsplit =>
      h (op :: before) op' after (congrArg (op :: ·) hsplit)⟩
  · rintro ⟨hop, hrest⟩ before op' after hsplit
    rcases List.cons_eq_append_iff.1 hsplit with ⟨rfl, heq⟩ | ⟨before', rfl, heq⟩
    · cases heq
      exact hop
    · exact hrest before' op' after heq

/-- **What a history preserves.** -/
theorem run_follows {operations : List Operation} (hops : ∀ op ∈ operations, ¬op.isReplacement)
    (hspare : AllSpare id q operations) (hq : q.Coherent) (hd : q.class? id = some d)
    (h : Follows resolve c q d) :
    ∃ e, (run q operations).class? id = some e ∧ Follows resolve c (run q operations) e := by
  induction operations generalizing q d with
  | nil => exact ⟨d, hd, h⟩
  | cons op rest ih =>
    obtain ⟨hop, hrest⟩ := allSpare_cons.1 hspare
    have heffect := apply_effect (hops op List.mem_cons_self) q
    obtain ⟨e, he, h⟩ := heffect.follows hq hd hop h
    exact ih (fun o ho => hops o (List.mem_cons_of_mem _ ho)) hrest
      (heffect.steps.coherent hq) he h

end Operation

namespace Package

variable {p q : Package} {id : ClassId} {c d e : NativeClass}

/-! ## Reports on declared classes -/

/-- The reports on classes that are still declared are on accessors. -/
def DeclaredClean (p : Package) : Prop :=
  ∀ id c, p.class? id = some c → c.phase = .declared → c.ReportsAccessorsOnly

/-- **Every effect on a class keeps it so.** -/
theorem kept_reportsAccessorsOnly :
    Kept fun _ c => c.phase = .declared → c.ReportsAccessorsOnly where
  register _ _ _ _ _ _ hreport := nomatch hreport
  declare _ c d hphase hd hc _ := by
    have hsame : d.diagnostics = c.diagnostics := by rw [hd.same]
    rw [NativeClass.ReportsAccessorsOnly, hsame]
    exact hc hphase
  rebase _ _ _ hphase hc _ := hc hphase
  attach _ _ _ _ _ _ _ hc hphase report hreport := by
    rcases List.mem_append.1 hreport with hold | hnew
    · exact hc hphase report hold
    · exact NativeClass.isDuplicateAccessor_of_attached hnew
  advance _ _ c d hadvances _ hphase := by
    cases hadvances with
    | preprocess _ => cases hphase
    | process _ _ _ => cases hphase
    | postprocess _ => cases hphase

theorem Reachable.declaredClean (h : p.Reachable) : p.DeclaredClean :=
  h.allClasses kept_reportsAccessorsOnly

/-! ## Reports on finalized classes -/

/-- **A finalized class reports the findings of its declaration.**  Let resolution take a class of a
reachable package out of its declaration, and let anything happen after that, except that accessors
are attached to the class while it is processed.  Once the class is finalized it reports each
override that was dropped, then each of its own that does not fit one method, then each inherited
one that fits several, then each accessor of its methods that took a slot from another, then, unless
it is abstract or travels as numbers, that it has no constructor if that is so; nothing else, and
each once. -/
theorem Reachable.diagnostics_finalized (h : p.Reachable) (hc : p.class? id = some c)
    (hphase : c.phase = .declared) {resolution later : List Operation}
    (hresolution : ∀ op ∈ resolution, op.isResolution)
    (hd : (Operation.run p resolution).class? id = some d) (hdphase : d.phase ≠ .declared)
    (hlater : ∀ op ∈ later, ¬op.isReplacement)
    (hspare : Operation.AllSpare id (Operation.run p resolution) later)
    (hq : q = Operation.run p (resolution ++ later)) (he : q.class? id = some e)
    (hephase : e.phase = .finalized) :
    ∃ chain, q.ancestorChain id = .ok chain ∧
      e.diagnostics =
        c.findings p.types.resolve p.options (chain.filterMap q.class?) e.methods := by
  have hpasses := Operation.run_passes hresolution p
  have hcoherent := hpasses.coherent h.coherent
  rcases hpasses.follows_of_declared h.coherent hc hphase with hsame | ⟨d', hd', hfollows⟩
  · rw [hsame] at hd
    cases hd
    exact absurd hphase hdphase
  rw [Operation.run_append] at hq
  subst hq
  have hsteps := Operation.run_steps hlater (Operation.run p resolution)
  have hoptions := (hpasses.steps.trans _ _ _ hsteps).options_eq
  obtain ⟨e', he', hfollows⟩ := Operation.run_follows hlater hspare hcoherent hd' hfollows
  rw [he'] at he
  cases he
  have hprocessed : Phase.processed ≤ e.phase := hephase ▸ (by decide)
  obtain ⟨hchain, _⟩ := (hsteps.coherent hcoherent).ancestorChain_eq he' hprocessed
  refine ⟨e.ancestors, hchain, ?_⟩
  cases hfollows with
  | tidied h => cases h.phase_eq.symm.trans hephase
  | processed h => cases (phase_eq_of_processed h).symm.trans hephase
  | @finalized b hb =>
    rw [processEntry, hoptions] at hb
    show b.postprocess.diagnostics = c.findings p.types.resolve p.options
      (b.ancestors.filterMap (Operation.run (Operation.run p resolution) later).class?) b.methods
    exact NativeClass.diagnostics_resolved (h.declaredClean id c hc hphase) hb

/-- Nodes that choose a way to turn, and meshes on which there is much to report: of their overrides
one has a type without a meaning, one fits nothing and one too much; two getters want one slot; and
two setters of other properties have been attached by hand, one over the other. -/
def untidyPackage : Package :=
  Operation.run { name := "scene" }
    [.registerModule "scene", .registerClass ⟨0⟩ "Node" "scene::Node",
      .registerClass ⟨0⟩ "Mesh" "scene::Mesh", .setBase ⟨1⟩ (some ⟨0⟩),
      .addOverride ⟨0⟩ { name := "turn", signature := ["int"] },
      .addOverride ⟨1⟩ { name := "spin", signature := ["int", "Missing"] },
      .addOverride ⟨1⟩ { name := "scale", signature := ["float"] },
      .addOverride ⟨1⟩ { name := "move", signature := ["int"] },
      .addMethod ⟨1⟩ (.setter "move" (.ofName "int")),
      .addMethod ⟨1⟩ (.setter "move" (.ofName "int")),
      .addMethod ⟨1⟩ (.setter "turn" (.ofName "int")),
      .addMethod ⟨1⟩ (.setter "turn" (.ofName "int")),
      .addMethod ⟨1⟩ (.getter "GetX" (.ofName "int")),
      .addMethod ⟨1⟩ (.getter "X" (.ofName "int")),
      .attachAccessor ⟨1⟩ ⟨0⟩ {}, .attachAccessor ⟨1⟩ ⟨1⟩ {}]

/-- Of the setters attached by hand nothing is left to report; of the rest there is. -/
theorem diagnostics_finalized_untidy :
    ∃ (c e : NativeClass) (chain : List ClassId),
      untidyPackage.class? ⟨1⟩ = some c ∧
      (Operation.run untidyPackage
        [.preprocess ⟨1⟩, .attachAccessor ⟨1⟩ ⟨0⟩ {}, .resolveAll]).class? ⟨1⟩ = some e ∧
      e.diagnostics = c.findings untidyPackage.types.resolve untidyPackage.options
        (chain.filterMap (Operation.run untidyPackage
          [.preprocess ⟨1⟩, .attachAccessor ⟨1⟩ ⟨0⟩ {}, .resolveAll]).class?) e.methods ∧
      e.diagnostics = [.unresolvedOverrideType "spin" "Missing", .unmatchedOverride "scale" "float",
        .ambiguousOverride "move" "int" 2, .ambiguousOverride "turn" "int" 2,
        .duplicateAccessor "X" .getter "GetX" "X", .noUsableConstructor "Mesh"] := by
  have hreachable : untidyPackage.Reachable := ⟨"scene", {}, _, by decide, rfl⟩
  have hdeclared : (untidyPackage.class? ⟨1⟩).any (·.phase = .declared) := by decide +kernel
  have hbegun : ((Operation.run untidyPackage [.preprocess ⟨1⟩]).class? ⟨1⟩).any
      (·.phase = .preprocessed) := by decide +kernel
  have hresolved : ((Operation.run untidyPackage
      [.preprocess ⟨1⟩, .attachAccessor ⟨1⟩ ⟨0⟩ {}, .resolveAll]).class? ⟨1⟩).any
      (fun e : NativeClass => e.phase = .finalized ∧ e.diagnostics =
        [.unresolvedOverrideType "spin" "Missing", .unmatchedOverride "scale" "float",
          .ambiguousOverride "move" "int" 2, .ambiguousOverride "turn" "int" 2,
          .duplicateAccessor "X" .getter "GetX" "X", .noUsableConstructor "Mesh"]) := by
    decide +kernel
  have hresolution : ∀ op ∈ [Operation.preprocess ⟨1⟩], op.isResolution := by decide
  have hlater : ∀ op ∈ [Operation.attachAccessor ⟨1⟩ ⟨0⟩ {}, .resolveAll], ¬op.isReplacement := by
    decide
  obtain ⟨c, hc, hsome⟩ := (Option.any_eq_true _ _).1 hdeclared
  have hphase := of_decide_eq_true hsome
  obtain ⟨d, hd, hsome⟩ := (Option.any_eq_true _ _).1 hbegun
  have hdphase : d.phase = .preprocessed := of_decide_eq_true hsome
  obtain ⟨e, he, hsome⟩ := (Option.any_eq_true _ _).1 hresolved
  obtain ⟨hephase, hreports⟩ := of_decide_eq_true hsome
  -- The one accessor that is attached later comes when the class is preprocessed.
  have hspare : Operation.AllSpare ⟨1⟩ (Operation.run untidyPackage [.preprocess ⟨1⟩])
      [.attachAccessor ⟨1⟩ ⟨0⟩ {}, .resolveAll] := by
    rw [Operation.allSpare_cons, Operation.allSpare_cons]
    refine ⟨fun accessor options d' _ hd' => ?_, ?_, Operation.allSpare_nil _ _⟩
    · rw [hd] at hd'
      cases hd'
      rw [hdphase]
      decide
    · rintro accessor options d' ⟨⟩
  have hnot : d.phase ≠ .declared := by
    rw [hdphase]
    decide
  obtain ⟨chain, _, hfindings⟩ := hreachable.diagnostics_finalized hc hphase hresolution hd hnot
    hlater hspare rfl he hephase
  exact ⟨c, e, chain, hc, he, hfindings, hreports⟩

end Package

end ClassBindings
