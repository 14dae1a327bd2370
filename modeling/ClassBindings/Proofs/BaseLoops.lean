import ClassBindings.Proofs.CarriedIds

/-! # Loops of base links

Bases that form a loop leave no order of resolution, and nothing else keeps a package from having
one, as long as each entry carries its own position: links that lead nowhere are passed over
(`linkGraph_acyclic_iff`).  The class that is then named derives from itself; it is not merely
derived from a class that does.  All that such a class derives from derives from it in turn, and so
is a class (`Derives.back`).

`resolutionOrder_exact` puts this together with what becomes of the package: it is ordered with
known bases first, or one loop is reported and nothing is changed. -/
namespace ClassBindings.Package

variable {p : Package} {id a b : ClassId}

/-! ## Classes on a loop -/

/-- **A loop has no way out**: what a class on it derives from derives from the class. -/
theorem Derives.back (hloop : p.Derives id id) (h : p.Derives id a) : p.Derives a id := by
  -- Each class has one base, so the next link from a class on the loop is the link of the loop.
  have hnext {x y : ClassId} (hx : p.Derives x id) (hxy : p.HasBase x y) : p.Derives y id := by
    obtain ⟨z, hxz, hz⟩ := Relation.TransGen.head'_iff.1 hx
    cases hxz.unique hxy
    rcases Relation.reflTransGen_iff_eq_or_transGen.1 hz with rfl | hz
    · exact hloop
    · exact hz
  induction h with
  | single hlink => exact hnext hloop hlink
  | tail _ hlink ih => exact hnext ih hlink

/-- Only classes derive from anything. -/
theorem Derives.exists_class (h : p.Derives id a) : ∃ c, p.class? id = some c := by
  obtain ⟨_, ⟨c, hc, _⟩, _⟩ := Relation.TransGen.head'_iff.1 h
  exact ⟨c, hc⟩

/-! ## Loops and cycles -/

/-- A class reaches by links all that derives from it. -/
theorem reaches_of_derives (h : p.OwnPositions) (hab : p.Derives b a)
    (ha : ∃ c, p.class? a = some c) : p.linkGraph.Reaches a.index b.index := by
  have hlink {x y : ClassId} (hxy : p.HasBase x y) (hy : ∃ c, p.class? y = some c) :
      p.linkGraph.Link y.index x.index := by
    obtain ⟨c, hc, hbase⟩ := hxy
    exact (link_iff h).2 ⟨c, hc, hbase, lt_length_iff.2 hy⟩
  induction hab with
  | single hba => exact .single (hlink hba ha)
  | tail _ hxa ih => exact .head (hlink hxa ha) (ih (Derives.exists_class (.single hxa)))

/-- **The link graph has a cycle exactly if base links form a loop.** -/
theorem linkGraph_acyclic_iff (h : p.OwnPositions) :
    (∀ v, ¬p.linkGraph.Reaches v v) ↔ p.Loopless := by
  refine ⟨fun hacyclic id hid => ?_, fun hl => linkGraph_acyclic h hl⟩
  exact hacyclic id.index (reaches_of_derives h hid hid.exists_class)

/-! ## The order and the loops -/

theorem resolutionOrder_ok_iff (h : p.OwnPositions) :
    (∃ ids, p.resolutionOrder = .ok ids) ↔ p.Loopless := by
  rw [← linkGraph_acyclic_iff h,
    ← LinkGraph.topologicalOrder_ok_iff (linkGraph_inRange h.targeted), resolutionOrder_eq h]
  cases p.linkGraph.topologicalOrder with
  | ok order => simp
  | error position => simp

/-- **The class named for want of an order is on a loop.** -/
theorem loop_of_resolutionOrder_error (h : p.OwnPositions) {fault : OrderFault}
    (hfault : p.resolutionOrder = .error fault) : ∃ id, fault = .loop id ∧ p.Derives id id := by
  rw [resolutionOrder_eq h] at hfault
  cases htop : p.linkGraph.topologicalOrder with
  | ok order => simp [htop] at hfault
  | error position =>
    simp only [htop, Except.error.injEq] at hfault
    have hreaches := LinkGraph.topologicalOrder_error (linkGraph_inRange h.targeted) htop
    exact ⟨⟨position⟩, hfault.symm, derives_of_reaches h hreaches⟩

/-- Resolution of the whole package ends with the report on the loop. -/
theorem resolveAll_of_loop {c : NativeClass} (hloop : p.resolutionOrder = .error (.loop id))
    (hc : p.class? id = some c) :
    p.resolveAll = .ok
      { resolved := 0, diagnostics := [], errors := [(id, .circularBaseClass c.name c.name)] }
      p := by
  have hreport : p.loopReport id = { errors := [(id, .circularBaseClass c.name c.name)] } := by
    simp [loopReport, hc]
  rw [resolveAll, hloop, ← hreport]

/-- **Loops are found exactly.**  Let each entry of a package carry its own position; base links may
lead nowhere and may form loops.  There is an order of resolution exactly if they form none.  It is
then a permutation of the positions, with each base that is a class before what is derived from it.
If there is none, a class is named that derives from itself, by links that all lead to classes.
Resolution of the whole package then reports a loop at this class and nothing else, counts no class
as resolved, and leaves the package as it was. -/
theorem resolutionOrder_exact (h : p.OwnPositions) :
    ((∃ ids, p.resolutionOrder = .ok ids) ↔ p.Loopless) ∧
    (∀ ids, p.resolutionOrder = .ok ids → ids.Perm p.positions ∧ p.KnownBasesFirst ids) ∧
    ∀ fault, p.resolutionOrder = .error fault →
      ∃ id c, fault = .loop id ∧ p.class? id = some c ∧ p.Derives id id ∧
        (∀ a, p.Derives id a → ∃ b, p.class? a = some b) ∧
        p.resolveAll = .ok
          { resolved := 0, diagnostics := [], errors := [(id, .circularBaseClass c.name c.name)] }
          p := by
  refine ⟨resolutionOrder_ok_iff h, fun ids hids => ?_, fun fault hfault => ?_⟩
  · obtain ⟨ids', hids', hfirst⟩ := ((resolutionOrder_ok_iff h).1 ⟨ids, hids⟩).resolutionOrder_ok h
    rw [hids] at hids'
    cases hids'
    exact ⟨hfirst.perm, hfirst⟩
  · obtain ⟨id, rfl, hloop⟩ := loop_of_resolutionOrder_error h hfault
    obtain ⟨c, hc⟩ := hloop.exists_class
    exact ⟨id, c, rfl, hc, hloop, fun a ha => (hloop.back ha).exists_class,
      resolveAll_of_loop hfault hc⟩

/-- Skins derived from nodes, nodes and meshes that derive from each other, and lamps whose base is
no class. -/
def loopedHistory : List Operation :=
  [.registerModule "scene", .registerClass ⟨0⟩ "Skin" "scene::Skin",
    .registerClass ⟨0⟩ "Node" "scene::Node", .registerClass ⟨0⟩ "Mesh" "scene::Mesh",
    .registerClass ⟨0⟩ "Lamp" "scene::Lamp", .setBase ⟨0⟩ (some ⟨1⟩), .setBase ⟨1⟩ (some ⟨2⟩),
    .replaceClass ⟨2⟩
      { id := ⟨2⟩, name := "Mesh", nativeName := "scene::Mesh", module := ⟨0⟩, base := some ⟨1⟩ },
    .replaceClass ⟨3⟩
      { id := ⟨3⟩, name := "Lamp", nativeName := "scene::Lamp", module := ⟨0⟩, base := some ⟨9⟩ }]

/-- The loop is reported at meshes and not at skins, which merely lead to it.  Nodes without a base
break it, and then lamps are no obstacle to an order. -/
theorem resolutionOrder_exact_looped :
    ∃ looped mended : Package,
      looped = Operation.run { name := "scene" } loopedHistory ∧
      mended = Operation.run { name := "scene" } (loopedHistory ++ [.setBase ⟨1⟩ none]) ∧
      looped.resolutionOrder = .error (.loop ⟨2⟩) ∧ looped.Derives ⟨2⟩ ⟨2⟩ ∧
      (∃ report, looped.resolveAll = .ok report looped ∧ report.errors.map (·.1) = [⟨2⟩] ∧
        report.resolved = 0) ∧
      mended.Loopless ∧ mended.KnownBasesFirst [⟨3⟩, ⟨1⟩, ⟨2⟩, ⟨0⟩] := by
  have hnew : OwnPositions { name := "scene" } := allClasses_new "scene" {} _
  have hkeeps : ∀ op ∈ loopedHistory ++ [.setBase ⟨1⟩ none], Operation.KeepsPositions op := by
    simp [loopedHistory, Operation.KeepsPositions]
  generalize hlooped : Operation.run { name := "scene" } loopedHistory = looped
  generalize hmended :
    Operation.run { name := "scene" } (loopedHistory ++ [.setBase ⟨1⟩ none]) = mended
  have hloop : looped.resolutionOrder = .error (.loop ⟨2⟩) := by
    subst hlooped
    decide +kernel
  have horder : mended.resolutionOrder = .ok [⟨3⟩, ⟨1⟩, ⟨2⟩, ⟨0⟩] := by
    subst hmended
    decide +kernel
  have hown : looped.OwnPositions := hlooped ▸
    Operation.ownPositions_run (fun op hop => hkeeps op (List.mem_append_left _ hop)) hnew
  have hown' : mended.OwnPositions := hmended ▸ Operation.ownPositions_run hkeeps hnew
  obtain ⟨_, _, hfails⟩ := resolutionOrder_exact hown
  obtain ⟨hiff, hfirst, _⟩ := resolutionOrder_exact hown'
  obtain ⟨id, c, hid, _, hderives, _, hrun⟩ := hfails _ hloop
  cases hid
  exact ⟨looped, mended, rfl, rfl, hloop, hderives, ⟨_, hrun, rfl, rfl⟩, hiff.1 ⟨_, horder⟩,
    (hfirst _ horder).2⟩

end ClassBindings.Package
