import ClassBindings.Proofs.ResolutionOrder

/-! # Resolving a whole package succeeds

In a coherent package a class whose base has been processed goes all the way
(`Coherent.resolveClass_ok`), whatever phase it is in.  Bases come first in the order of
resolution, so a run over it finalizes every class and refuses nothing.  What it reports is the
`fullReport` of the package that it leaves: a class that is finalized does not change again, so what
was reported of it stays true to the end. -/
namespace ClassBindings.Package

variable {p q : Package} {id : ClassId} {c : NativeClass}

/-! ## One class -/

theorem Passes.coherent (h : Passes p q) (hp : p.Coherent) : q.Coherent := h.steps.coherent hp

theorem Advances.base_eq {d : NativeClass} (h : p.Advances id c d) : d.base = c.base := by
  cases h <;> rfl

/-- Passes leave base links alone. -/
theorem Passes.sameBases (h : Passes p q) : p.SameBases q := by
  induction h with
  | refl => exact fun _ => rfl
  | tail _ hpass ih =>
    cases hpass with
    | advance hc hd => exact ih.trans (sameBases_putClass hc hd.base_eq)

/-- The class has ancestors to be processed with, and all of them are processed. -/
def Ready (p : Package) (id : ClassId) : Prop :=
  ∃ chain, p.ancestorChain id = .ok chain ∧ ∀ a ∈ chain.filterMap p.class?, .processed ≤ a.phase

theorem ready_of_allProcessed {chain : List ClassId} (hchain : p.ancestorChain id = .ok chain)
    (hall : p.AllProcessed chain) : p.Ready id := by
  refine ⟨chain, hchain, fun b hb => ?_⟩
  obtain ⟨a, ha, hab⟩ := List.mem_filterMap.1 hb
  obtain ⟨b', hb', hphase⟩ := hall a ha
  rw [hab] at hb'
  cases hb'
  exact hphase

/-- The base of the class, if it has one, has been processed. -/
def BaseProcessed (p : Package) (c : NativeClass) : Prop :=
  ∀ base, c.base = some base → p.AllProcessed [base]

/-- A class with a processed base is ready to be processed: its base stores the rest of the
lineage, and that is processed too. -/
theorem Coherent.ready (h : p.Coherent) (hc : p.class? id = some c)
    (hbase : p.BaseProcessed c) : p.Ready id := by
  obtain ⟨chain, hchain, hlineage⟩ := h.toGrounded.ancestorChain_ok hc
  refine ready_of_allProcessed hchain ?_
  rw [BaseProcessed] at hbase
  generalize c.base = next at hbase hlineage
  cases hlineage with
  | root => exact fun a ha => nomatch ha
  | @base b bc above hb habove =>
    obtain ⟨bc', hb', hphase⟩ := hbase b rfl b List.mem_cons_self
    rw [hb] at hb'
    cases hb'
    have hstored := habove.unique ((h b bc hb).lineage hphase)
    intro a ha
    rcases List.mem_cons.1 ha with rfl | ha
    · exact ⟨bc, hb, hphase⟩
    · exact (h b bc hb).ancestors hphase a (hstored ▸ ha)

theorem resolveClass_eq (hc : p.class? id = some c) :
    resolveClass id p =
      (match c.phase with
        | .declared => do preprocess id; process id; postprocess id
        | .preprocessed => do process id; postprocess id
        | .processed => postprocess id
        | .finalized => pure () : Edit Package Unit) p := by
  rw [resolveClass, Edit.bind_get]
  refine (Edit.bind_check_ok (getClass_of_class? hc) _ p).trans ?_
  cases c.phase <;> rfl

/-- The run on this class was carried out: it is finalized, and no other class has changed. -/
def Finalizes (p : Package) (id : ClassId) (run : Edit Package Unit) : Prop :=
  ∃ q d, run p = .ok () q ∧ Passes p q ∧ q.class? id = some d ∧ d.phase = .finalized ∧
    ∀ id', id' ≠ id → q.class? id' = p.class? id'

/-- One pass more in front. -/
theorem Finalizes.cons {d : NativeClass} {first rest : Edit Package Unit}
    (hc : p.class? id = some c) (hd : p.Advances id c d)
    (hfirst : first p = .ok () (p.putClass id d)) (h : (p.putClass id d).Finalizes id rest) :
    p.Finalizes id (do first; rest) := by
  obtain ⟨q, e, hrest, hpasses, he, hphase, hothers⟩ := h
  refine ⟨q, e, ?_, .head (.advance hc hd) hpasses, he, hphase, fun id' hid => ?_⟩
  · rw [Edit.bind_apply_ok hfirst]
    exact hrest
  · rw [hothers id' hid, class?_putClass_of_ne hid]

theorem finalizes_of_processed (hc : p.class? id = some c) (hphase : c.phase = .processed) :
    p.Finalizes id (postprocess id) :=
  ⟨_, c.postprocess, postprocess_eq_ok_iff.2 ⟨c, hc, hphase, rfl⟩,
    .single (.advance hc (.postprocess hphase)), class?_putClass_self hc _, rfl,
    fun _ hid => class?_putClass_of_ne hid p _⟩

theorem finalizes_of_preprocessed (hc : p.class? id = some c) (hphase : c.phase = .preprocessed)
    (hready : p.Ready id) : p.Finalizes id (do process id; postprocess id) := by
  obtain ⟨chain, hchain, hancestors⟩ := hready
  exact .cons hc (.process hphase hchain hancestors)
    (process_eq_ok_iff.2 ⟨c, chain, hc, hphase, hchain, hancestors, rfl⟩)
    (finalizes_of_processed (class?_putClass_self hc _) rfl)

/-- The first step on a declared class leaves it as ready as it was. -/
theorem Ready.putClass {d : NativeClass} (h : p.Ready id) (hc : p.class? id = some c)
    (hphase : c.phase = .declared) (hbase : d.base = c.base) : (p.putClass id d).Ready id := by
  obtain ⟨chain, hchain, hancestors⟩ := h
  refine ⟨chain, (ancestorChain_congr (sameBases_putClass hc hbase) id).trans hchain, ?_⟩
  intro b hb
  obtain ⟨a, ha, hab⟩ := List.mem_filterMap.1 hb
  rcases class?_putClass_eq_some hc hab with ⟨rfl, _⟩ | ⟨_, hab⟩
  · -- The class would be among its own ancestors, and they are processed.
    have hprocessed := hancestors c (List.mem_filterMap.2 ⟨a, ha, hc⟩)
    rw [hphase] at hprocessed
    exact absurd hprocessed (by decide)
  · exact hancestors b (List.mem_filterMap.2 ⟨a, ha, hab⟩)

theorem finalizes_of_declared (hc : p.class? id = some c) (hphase : c.phase = .declared)
    (hready : p.Ready id) : p.Finalizes id (do preprocess id; process id; postprocess id) :=
  .cons hc (.preprocess hphase) (preprocess_eq_ok_iff.2 ⟨c, hc, hphase, rfl⟩)
    (finalizes_of_preprocessed (class?_putClass_self hc _) rfl (hready.putClass hc hphase rfl))

/-- **A class that is ready can be resolved to the end**, and a processed one in any case. -/
theorem finalizes_resolveClass (hc : p.class? id = some c)
    (hready : c.phase < .processed → p.Ready id) : p.Finalizes id (resolveClass id) := by
  rw [Finalizes, resolveClass_eq hc]
  cases hphase : c.phase with
  | declared => exact finalizes_of_declared hc hphase (hready (hphase ▸ by decide))
  | preprocessed => exact finalizes_of_preprocessed hc hphase (hready (hphase ▸ by decide))
  | processed => exact finalizes_of_processed hc hphase
  | finalized => exact ⟨p, c, rfl, .refl, hc, hphase, fun _ _ => rfl⟩

/-- **A class whose base is processed can be resolved to the end**, whatever its phase. -/
theorem Coherent.resolveClass_ok (h : p.Coherent) (hc : p.class? id = some c)
    (hbase : p.BaseProcessed c) :
    p.Finalizes id (resolveClass id) := finalizes_resolveClass hc fun _ => h.ready hc hbase

/-! ## Every class -/

/-- The diagnostics of the class at a position, each with that position. -/
def reportsOf (p : Package) (id : ClassId) : List (ClassId × Diagnostic) :=
  match p.class? id with
  | some c => c.diagnostics.map (id, ·)
  | none => []

/-- The report on a package in which these classes are finalized. -/
def fullReport (p : Package) (ids : List ClassId) : Report where
  resolved := ids.length
  diagnostics := ids.flatMap p.reportsOf

/-- Every class of the list is there and finalized. -/
def AllFinalized (p : Package) (ids : List ClassId) : Prop :=
  ∀ a ∈ ids, ∃ b, p.class? a = some b ∧ b.phase = .finalized

theorem AllFinalized.allProcessed {ids : List ClassId} (h : p.AllFinalized ids) :
    p.AllProcessed ids := by
  intro a ha
  obtain ⟨b, hb, hphase⟩ := h a ha
  exact ⟨b, hb, hphase ▸ (by decide)⟩

theorem resolveNext_ok {report : Report} (hok : resolveClass id p = .ok () q)
    (hc : q.class? id = some c) (hphase : c.phase = .finalized) :
    resolveNext report id p =
      ({ report with
          resolved := report.resolved + 1
          diagnostics := report.diagnostics ++ q.reportsOf id }, q) := by
  simp [resolveNext, hok, hc, reportsOf, NativeClass.isFinalized, Phase.isFinalized, hphase]

/-- A run that does not touch the classes done with extends the report by one class. -/
theorem fullReport_append {done : List ClassId}
    (hsame : ∀ a ∈ done, q.class? a = p.class? a) :
    { p.fullReport done with
        resolved := (p.fullReport done).resolved + 1
        diagnostics := (p.fullReport done).diagnostics ++ q.reportsOf id } =
      q.fullReport (done ++ [id]) := by
  have hreports : done.flatMap q.reportsOf = done.flatMap p.reportsOf :=
    List.flatMap_congr fun a ha => by rw [reportsOf, reportsOf, hsame a ha]
  simp [fullReport, hreports]

/-- **A run with bases first finalizes every class and refuses nothing.** -/
theorem Coherent.foldl_resolveNext (h : p.Coherent) {ids : List ClassId} (hids : p.BasesFirst ids)
    (done rest : List ClassId) (hsplit : ids = done ++ rest) {q : Package} (hpq : Passes p q)
    (hdone : q.AllFinalized done) :
    ∃ r, rest.foldl (fun s id => resolveNext s.1 id s.2) (q.fullReport done, q) =
        (r.fullReport ids, r) ∧
      Passes p r ∧ r.AllFinalized ids := by
  -- The classes done with carry the invariant: they are finalized, so none of them changes again.
  induction rest generalizing done q with
  | nil =>
    rw [List.append_nil] at hsplit
    subst hsplit
    exact ⟨q, rfl, hpq, hdone⟩
  | cons id rest ih =>
    have hsplit' : ids = (done ++ [id]) ++ rest := by
      rw [hsplit, List.append_assoc, List.singleton_append]
    obtain ⟨c, hc⟩ := (hids.mem_iff id).1 (by rw [hsplit]; simp)
    obtain ⟨d, hd, hbase⟩ := hpq.sameBases.class?_eq_some hc
    have hready : q.BaseProcessed d := by
      intro base hb a ha
      rw [List.mem_singleton] at ha
      subst ha
      exact hdone.allProcessed a (hids.base done id rest hsplit c hc a (hbase ▸ hb))
    obtain ⟨r, e, hok, hqr, he, hphase, hothers⟩ := (hpq.coherent h).resolveClass_ok hd hready
    have hnot : id ∉ done := by
      have hnodup := hids.nodup
      rw [hsplit] at hnodup
      intro hmem
      exact (List.nodup_append.1 hnodup).2.2 id hmem id List.mem_cons_self rfl
    have hsame : ∀ a ∈ done, r.class? a = q.class? a := fun a ha =>
      hothers a fun he => hnot (he ▸ ha)
    have hdone' : r.AllFinalized (done ++ [id]) := by
      intro a ha
      rcases List.mem_append.1 ha with ha | ha
      · rw [hsame a ha]
        exact hdone a ha
      · rw [List.mem_singleton] at ha
        subst ha
        exact ⟨e, he, hphase⟩
    rw [List.foldl_cons, resolveNext_ok hok he hphase, fullReport_append hsame]
    exact ih (done ++ [id]) hsplit' (hpq.trans hqr) hdone'

/-- **A run with bases first leaves every class finalized**, and reports all of them as they are
then. -/
theorem Coherent.resolveEach_ok (h : p.Coherent) {ids : List ClassId} (hids : p.BasesFirst ids) :
    ∃ q, resolveEach ids p = (q.fullReport ids, q) ∧ Passes p q ∧
      ∀ id c, q.class? id = some c → id ∈ ids ∧ c.phase = .finalized := by
  obtain ⟨q, hrun, hpq, hall⟩ :=
    h.foldl_resolveNext hids [] ids rfl .refl (fun a ha => nomatch ha)
  refine ⟨q, hrun, hpq, fun id c hc => ?_⟩
  have hmem : id ∈ ids := by
    -- Passes add no class, so this one was there from the start.
    refine (hids.mem_iff id).2 ?_
    obtain ⟨b, hb, _⟩ := hpq.sameBases.symm.class?_eq_some hc
    exact ⟨b, hb⟩
  obtain ⟨d, hd, hphase⟩ := hall id hmem
  rw [hc] at hd
  cases hd
  exact ⟨hmem, hphase⟩

/-! ## What is reported -/

theorem filter_reportsOf_self (p : Package) (id : ClassId) :
    (p.reportsOf id).filter (·.1 = id) = p.reportsOf id := by
  rw [reportsOf]
  cases p.class? id with
  | none => rfl
  | some c => simp

theorem filter_reportsOf_of_ne {id' : ClassId} (h : id' ≠ id) (p : Package) :
    (p.reportsOf id').filter (·.1 = id) = [] := by
  rw [reportsOf]
  cases p.class? id' with
  | none => rfl
  | some c => simp [h]

/-- A report that lists the diagnostics of classes, each class once, has those of each of them. -/
theorem diagnosticsFor_eq {report : Report} {ids : List ClassId}
    (hreport : report.diagnostics = ids.flatMap p.reportsOf) (hnodup : ids.Nodup) (hid : id ∈ ids)
    (hc : p.class? id = some c) : report.diagnosticsFor id = c.diagnostics := by
  obtain ⟨before, after, rfl⟩ := List.append_of_mem hid
  have hbefore : ∀ a ∈ before, a ≠ id := fun a ha =>
    (List.nodup_append.1 hnodup).2.2 a ha id List.mem_cons_self
  have hafter : ∀ a ∈ after, a ≠ id := fun a ha he =>
    (List.nodup_cons.1 (List.nodup_append.1 hnodup).2.1).1 (he ▸ ha)
  have hnil {ids : List ClassId} (h : ∀ a ∈ ids, a ≠ id) :
      ids.flatMap (fun a => (p.reportsOf a).filter (·.1 = id)) = [] :=
    List.flatMap_eq_nil_iff.2 fun a ha => filter_reportsOf_of_ne (h a ha) p
  rw [Report.diagnosticsFor, hreport, List.filter_flatMap, List.flatMap_append,
    List.flatMap_cons, hnil hbefore, hnil hafter, filter_reportsOf_self, reportsOf, hc]
  simp [Function.comp_def]

/-! ## A second run -/

theorem Passes.length_eq (h : Passes p q) : q.classes.length = p.classes.length := by
  induction h with
  | refl => rfl
  | tail _ hpass ih =>
    cases hpass with
    | advance hc hd => rw [length_putClass, ih]

/-- **Where every class is finalized there is no pass left.** -/
theorem Passes.eq_of_finalized (h : Passes p q)
    (hall : ∀ id c, p.class? id = some c → c.phase = .finalized) : q = p := by
  rcases Relation.ReflTransGen.cases_head h with rfl | ⟨r, hpass, _⟩
  · rfl
  · cases hpass with
    | advance hc hd => exact absurd (hall _ _ hc) hd.not_finalized

theorem Passes.basesFirst (h : Passes p q) {ids : List ClassId} (hids : p.BasesFirst ids) :
    q.BasesFirst ids where
  nodup := hids.nodup
  length := hids.length.trans h.length_eq.symm
  mem_iff id := by
    refine (hids.mem_iff id).trans ⟨?_, ?_⟩
    · rintro ⟨c, hc⟩
      obtain ⟨d, hd, _⟩ := h.sameBases.class?_eq_some hc
      exact ⟨d, hd⟩
    · rintro ⟨d, hd⟩
      obtain ⟨c, hc, _⟩ := h.sameBases.symm.class?_eq_some hd
      exact ⟨c, hc⟩
  base done id rest hsplit d hd base hbase := by
    obtain ⟨c, hc, hdc⟩ := h.sameBases.symm.class?_eq_some hd
    exact hids.base done id rest hsplit c hc base (hdc.trans hbase)

/-- The report and the package that a run over all classes of `p` should end with. -/
structure ResolvesTo (p : Package) (report : Report) (q : Package) : Prop where
  /-- Nothing is refused. -/
  errors : report.errors = []
  /-- No class comes or goes. -/
  length : q.classes.length = p.classes.length
  finalized : ∀ id c, q.class? id = some c → c.phase = .finalized
  /-- Every class is counted. -/
  resolved : report.resolved = q.classes.length
  /-- What is reported of a class is what the class has to report. -/
  diagnostics : ∀ id c, q.class? id = some c → report.diagnosticsFor id = c.diagnostics

/-- **Any order with bases first will do**, and running through it again changes nothing. -/
theorem Coherent.resolveEach_complete (h : p.Coherent) {ids : List ClassId}
    (hids : p.BasesFirst ids) :
    ∃ report q, resolveEach ids p = (report, q) ∧ Passes p q ∧ p.ResolvesTo report q ∧
      resolveEach ids q = (report, q) := by
  obtain ⟨q, hrun, hpq, hall⟩ := h.resolveEach_ok hids
  have hfinal : ∀ id c, q.class? id = some c → c.phase = .finalized := fun id c hc =>
    (hall id c hc).2
  refine ⟨q.fullReport ids, q, hrun, hpq, ⟨rfl, hpq.length_eq, hfinal, ?_, ?_⟩, ?_⟩
  · rw [hpq.length_eq]
    exact hids.length
  · exact fun id c hc => diagnosticsFor_eq rfl hids.nodup (hall id c hc).1 hc
  · obtain ⟨q', hrun', hqq', _⟩ := (hpq.coherent h).resolveEach_ok (hpq.basesFirst hids)
    rw [hqq'.eq_of_finalized hfinal] at hrun'
    exact hrun'

theorem resolveAll_eq {ids : List ClassId} (hids : p.resolutionOrder = .ok ids) {report : Report}
    (hrun : resolveEach ids p = (report, q)) : p.resolveAll = .ok report q := by
  rw [resolveAll, hids]
  show EStateM.Result.ok (resolveEach ids p).1 (resolveEach ids p).2 = _
  rw [hrun]

/-- **Resolving a coherent package is complete**, and doing it again changes nothing. -/
theorem Coherent.resolveAll_ok (h : p.Coherent) :
    ∃ report q, p.resolveAll = .ok report q ∧ Passes p q ∧ p.ResolvesTo report q ∧
      q.resolveAll = .ok report q := by
  obtain ⟨ids, hids, hfirst⟩ := h.toGrounded.resolutionOrder_ok h.ownPositions
  obtain ⟨report, q, hrun, hpq, hq, hagain⟩ := h.resolveEach_complete hfirst
  have hids' : q.resolutionOrder = .ok ids := by
    rw [resolutionOrder_congr h.ownPositions (hpq.coherent h).ownPositions hpq.sameBases, hids]
  exact ⟨report, q, resolveAll_eq hids hrun, hpq, hq, resolveAll_eq hids' hagain⟩

/-- **Resolution is complete.**  On a reachable package a run over all classes refuses nothing,
finalizes every class, counts them all, and reports of each class what the class itself has to
report; a second run reports the same and changes nothing.  So does a run through the classes in
any other order that has bases first. -/
theorem Reachable.resolveAll_complete (h : p.Reachable) :
    (∃ report q, p.resolveAll = .ok report q ∧ p.ResolvesTo report q ∧
      q.resolveAll = .ok report q) ∧
    ∀ ids, p.BasesFirst ids → ∃ report q, resolveEach ids p = (report, q) ∧
      p.ResolvesTo report q ∧ resolveEach ids q = (report, q) := by
  refine ⟨?_, fun ids hids => ?_⟩
  · obtain ⟨report, q, hrun, _, hq, hagain⟩ := h.coherent.resolveAll_ok
    exact ⟨report, q, hrun, hq, hagain⟩
  · obtain ⟨report, q, hrun, _, hq, hagain⟩ := h.coherent.resolveEach_complete hids
    exact ⟨report, q, hrun, hq, hagain⟩

theorem resolveAll_complete_mesh :
    (∃ report q, meshPackage.resolveAll = .ok report q ∧ report.errors = [] ∧
      report.resolved = 2 ∧ q.resolveAll = .ok report q) ∧
    ∃ report q, resolveEach [⟨0⟩, ⟨1⟩] meshPackage = (report, q) ∧ report.errors = [] ∧
      report.resolved = 2 ∧ resolveEach [⟨0⟩, ⟨1⟩] q = (report, q) := by
  have htwo : meshPackage.classes.length = 2 := by decide +kernel
  have hfirst : meshPackage.BasesFirst [⟨0⟩, ⟨1⟩] := by
    have hcoherent := reachable_meshPackage.coherent
    obtain ⟨ids, hids, hfirst⟩ := hcoherent.toGrounded.resolutionOrder_ok hcoherent.ownPositions
    have horder : meshPackage.resolutionOrder = .ok [⟨0⟩, ⟨1⟩] := by decide +kernel
    rw [horder] at hids
    cases hids
    exact hfirst
  obtain ⟨⟨report, q, hrun, hq, hagain⟩, heach⟩ := reachable_meshPackage.resolveAll_complete
  obtain ⟨report', q', hrun', hq', hagain'⟩ := heach _ hfirst
  exact ⟨⟨report, q, hrun, hq.errors, by rw [hq.resolved, hq.length, htwo], hagain⟩,
    report', q', hrun', hq'.errors, by rw [hq'.resolved, hq'.length, htwo], hagain'⟩

end ClassBindings.Package
