import ClassBindings.Proofs.Completion
import Mathlib.Data.List.Perm.Subperm

/-! # The order and the identifiers that entries carry

An entry put in place as a whole brings its own identifier, which need not be the position it is put
at.  The order of resolution mixes the two: links lead from the position of a base to the identifier
of the entry, and what is listed are identifiers.

So there is a link without a target exactly if some class is not `Targeted`, and an order lists the
identifiers that the entries carry, whichever they are (`resolutionOrder_perm`).  It visits every
position once exactly if these are the positions, each once (`perm_positions_iff`).  A history keeps
them so if entries only go where they belong (`Operation.KeepsPositions`, `ownPositions_run`).
Otherwise a class may be resolved twice and another not at all, and resolution may even fail to get
under way (`resolutionOrder_astray`). -/
namespace ClassBindings

namespace Package

variable {p : Package} {ids : List ClassId}

/-! ## What the order lists -/

/-- A link without a target is all that keeps the order from being sought. -/
theorem stray_iff (p : Package) :
    (∃ id, p.resolutionOrder = .error (.stray id)) ↔ ∃ c ∈ p.classes, ¬p.Targeted c := by
  rcases p.resolutionOrder_cases with ⟨hall, horder⟩ | ⟨c, hc, hnot, herror⟩
  · constructor
    · rintro ⟨id, hstray⟩
      rw [hstray] at horder
      cases htop : p.linkGraph.topologicalOrder with
      | ok order => simp [htop] at horder
      | error position => simp [htop] at horder
    · rintro ⟨c, hc, hnot⟩
      exact absurd (hall c hc) hnot
  · exact ⟨fun _ => ⟨c, hc, hnot⟩, fun _ => ⟨c.id, herror⟩⟩

/-- The identifiers at all positions are those that the entries carry. -/
theorem map_carriedId (p : Package) :
    (List.range p.classes.length).map p.carriedId = p.classes.map (·.id) := by
  refine List.ext_getElem (by simp) fun i hi _ => ?_
  have hlt : i < p.classes.length := by simpa using hi
  simp [carriedId, hlt]

/-- **An order lists the identifiers that the entries carry.** -/
theorem resolutionOrder_perm (h : p.resolutionOrder = .ok ids) :
    ids.Perm (p.classes.map (·.id)) := by
  rcases p.resolutionOrder_cases with ⟨hall, horder⟩ | ⟨c, _, _, herror⟩
  · rw [h] at horder
    cases htop : p.linkGraph.topologicalOrder with
    | error position => simp [htop] at horder
    | ok order =>
      simp only [htop, Except.ok.injEq] at horder
      have hperm := (LinkGraph.topologicalOrder_ok (linkGraph_inRange hall) htop).perm
      rw [horder, ← p.map_carriedId]
      exact hperm.map p.carriedId
  · rw [h] at herror
    cases herror

/-- As many identifiers as there are classes are the positions exactly if they are all different and
each is a position. -/
theorem perm_positions_iff (hlength : ids.length = p.classes.length) :
    ids.Perm p.positions ↔ ids.Nodup ∧ ∀ id ∈ ids, id.index < p.classes.length := by
  constructor
  · intro hperm
    exact ⟨hperm.nodup_iff.2 p.nodup_positions, fun id hid => mem_positions.1 (hperm.mem_iff.1 hid)⟩
  · rintro ⟨hnodup, hlt⟩
    have hsub : ids.Subperm p.positions :=
      List.subperm_of_subset hnodup fun id hid => mem_positions.2 (hlt id hid)
    refine hsub.perm_of_length_le ?_
    rw [hlength, length_positions]

/-- Resolution of the whole package is only ever refused for a link without a target. -/
theorem exists_resolveAll_ok (h : ∀ id, p.resolutionOrder ≠ .error (.stray id)) :
    ∃ report q, p.resolveAll = .ok report q := by
  rw [resolveAll]
  split
  · exact ⟨_, _, rfl⟩
  · exact ⟨_, _, rfl⟩
  · rename_i id hstray
    exact absurd hstray (h id)

/-! ## Entries at the positions they carry -/

/-- **Every effect on a class leaves it the identifier that it carries.** -/
theorem kept_id : Kept fun id c => c.id = id where
  register _ _ _ _ := rfl
  declare _ _ _ _ hd hc := by rwa [hd.same]
  rebase _ _ _ _ hc := hc
  attach _ _ _ _ _ _ _ hc := hc
  advance _ _ _ _ hadvances hc := by cases hadvances <;> exact hc

theorem OwnPositions.map_id (h : p.OwnPositions) : p.classes.map (·.id) = p.positions := by
  rw [← map_carriedId, funext (carriedId_eq h)]
  rfl

/-- **Where each entry carries its own position the driver is safe**: every link has a target, and
an order lists every position once. -/
theorem OwnPositions.resolution_safe (h : p.OwnPositions) :
    (∃ report q, p.resolveAll = .ok report q) ∧
      ∀ ids, p.resolutionOrder = .ok ids → ids.Perm p.positions := by
  constructor
  · refine exists_resolveAll_ok fun id hstray => ?_
    obtain ⟨c, hc, hnot⟩ := p.stray_iff.1 ⟨id, hstray⟩
    exact hnot (h.targeted c hc)
  · intro ids hids
    rw [← h.map_id]
    exact resolutionOrder_perm hids

end Package

namespace Operation

open Package

variable {p : Package} {op : Operation}

/-- An entry that is put in place as a whole goes where it belongs. -/
def KeepsPositions : Operation → Prop
  | replaceClass id entry => entry.id = id
  | _ => True

theorem ownPositions_apply (h : p.OwnPositions) (hop : op.KeepsPositions) :
    (op.apply p).OwnPositions := by
  by_cases hreplacement : op.isReplacement
  · cases op with
    | replaceClass id entry => exact AllClasses.replaceClass h hop
    | _ => cases hreplacement
  · exact AllClasses.effect kept_id (apply_effect hreplacement p) h

/-- **A history that puts entries where they belong keeps them at the positions they carry.** -/
theorem ownPositions_run {operations : List Operation} (hops : ∀ op ∈ operations, op.KeepsPositions)
    (h : p.OwnPositions) : (run p operations).OwnPositions := by
  induction operations generalizing p with
  | nil => exact h
  | cons op rest ih =>
    exact ih (fun o ho => hops o (List.mem_cons_of_mem _ ho))
      (ownPositions_apply h (hops op List.mem_cons_self))

end Operation

namespace Package

/-! ## Which packages have an order of all their classes -/

/-- **The order of resolution is safe exactly as far as entries carry positions.**  Let a package be
in any state, its entries put in place in whatever way.  A link has no target exactly if some entry
has a base that is a class and carries an identifier that is no position.  An order, where there is
one, lists the identifiers that the entries carry, so it visits each position exactly once if and
only if they are all different and each is a position.  If no operation of its history put an entry
where it does not belong, the package can be resolved, and every order visits each position once. -/
theorem resolutionOrder_safe_iff (p : Package) :
    ((∃ id, p.resolutionOrder = .error (.stray id)) ↔
      ∃ c ∈ p.classes, ∃ base, c.base = some base ∧ base.index < p.classes.length ∧
        p.classes.length ≤ c.id.index) ∧
    (∀ ids, p.resolutionOrder = .ok ids →
      ids.Perm (p.classes.map (·.id)) ∧
      (ids.Perm p.positions ↔
        (p.classes.map (·.id)).Nodup ∧ ∀ c ∈ p.classes, c.id.index < p.classes.length)) ∧
    ∀ name options operations, (∀ op ∈ operations, Operation.KeepsPositions op) →
      p = Operation.run { name, options } operations →
      (∃ report q, p.resolveAll = .ok report q) ∧
        ∀ ids, p.resolutionOrder = .ok ids → ids.Perm p.positions := by
  refine ⟨?_, fun ids hids => ?_, ?_⟩
  · rw [stray_iff]
    simp only [Targeted, not_forall, Nat.not_lt, exists_prop]
  · have hperm := resolutionOrder_perm hids
    have hlength : (p.classes.map (·.id)).length = p.classes.length := by simp
    have hcarried := perm_positions_iff hlength
    rw [List.forall_mem_map] at hcarried
    exact ⟨hperm, ⟨fun h => hcarried.1 (hperm.symm.trans h), fun h => hperm.trans (hcarried.2 h)⟩⟩
  · rintro name options operations hops rfl
    have hown : OwnPositions { name, options } := allClasses_new name options _
    exact (Operation.ownPositions_run hops hown).resolution_safe

/-- Registers nodes and puts an entry in their place. -/
def replacedNode (entry : NativeClass) : List Operation :=
  [.registerModule "scene", .registerClass ⟨0⟩ "Node" "scene::Node", .replaceClass ⟨0⟩ entry]

/-- Nodes are put in place by an entry of their own, derived from the class registered next.  The
order has that class first and nodes second, and the package can be resolved. -/
theorem resolutionOrder_safe_iff_node :
    ∃ p ids report q,
      p = Operation.run { name := "scene" }
        (replacedNode { id := ⟨0⟩, name := "Node", nativeName := "scene::Node", module := ⟨0⟩,
                        base := some ⟨1⟩ } ++ [.registerClass ⟨0⟩ "Object" "scene::Object"]) ∧
      p.resolutionOrder = .ok ids ∧ ids = [⟨1⟩, ⟨0⟩] ∧ ids.Perm p.positions ∧
      (p.classes.map (·.id)).Nodup ∧ p.resolveAll = .ok report q := by
  generalize hentry : ({ id := ⟨0⟩, name := "Node", nativeName := "scene::Node", module := ⟨0⟩,
                         base := some ⟨1⟩ } : NativeClass) = entry
  have hkeeps : ∀ op ∈ replacedNode entry ++ [.registerClass ⟨0⟩ "Object" "scene::Object"],
      Operation.KeepsPositions op := by
    subst hentry
    simp [replacedNode, Operation.KeepsPositions]
  generalize hp : Operation.run { name := "scene" }
    (replacedNode entry ++ [.registerClass ⟨0⟩ "Object" "scene::Object"]) = p
  have horder : p.resolutionOrder = .ok [⟨1⟩, ⟨0⟩] := by
    subst hp hentry
    decide +kernel
  obtain ⟨_, hlists, hsafe⟩ := resolutionOrder_safe_iff p
  obtain ⟨⟨report, q, hrun⟩, hperm⟩ := hsafe "scene" {} _ hkeeps hp.symm
  have hpositions := hperm _ horder
  have hnodup := ((hlists _ horder).2.1 hpositions).1
  exact ⟨p, _, report, q, rfl, horder, rfl, hpositions, hnodup, hrun⟩

/-- **Entries that are put where they do not belong lead resolution astray.**  Meshes are at position
1 of their own package, derived from the class at position 0, and are put in the place of nodes in
another.  If they are the only class there, their link has no target.  If another class follows,
that one is resolved and counted twice, and meshes are not resolved at all. -/
theorem resolutionOrder_astray :
    ∃ mesh, meshPackage.class? ⟨1⟩ = some mesh ∧
      (Operation.run { name := "nodes" } (replacedNode mesh)).resolutionOrder =
        .error (.stray ⟨1⟩) ∧
      ∃ p report q,
        p = Operation.run { name := "lamps" }
          (replacedNode mesh ++ [.registerClass ⟨0⟩ "Lamp" "scene::Lamp"]) ∧
        p.resolutionOrder = .ok [⟨1⟩, ⟨1⟩] ∧ ¬[⟨1⟩, ⟨1⟩].Perm p.positions ∧
        p.resolveAll = .ok report q ∧ report.isSuccess ∧ report.resolved = 2 ∧
        (q.class? ⟨0⟩).map (·.phase) = some .declared := by
  let nodes (mesh : NativeClass) := Operation.run { name := "nodes" } (replacedNode mesh)
  let lamps (mesh : NativeClass) := Operation.run { name := "lamps" }
    (replacedNode mesh ++ [.registerClass ⟨0⟩ "Lamp" "scene::Lamp"])
  let run (mesh : NativeClass) := resolveEach [⟨1⟩, ⟨1⟩] (lamps mesh)
  have hgrafts : (meshPackage.class? ⟨1⟩).any (fun mesh =>
      (nodes mesh).resolutionOrder = .error (.stray ⟨1⟩) ∧
      (lamps mesh).resolutionOrder = .ok [⟨1⟩, ⟨1⟩] ∧
      ¬[⟨1⟩, ⟨1⟩].Perm (lamps mesh).positions ∧
      (run mesh).1.isSuccess ∧ (run mesh).1.resolved = 2 ∧
      ((run mesh).2.class? ⟨0⟩).map (·.phase) = some .declared) := by decide +kernel
  obtain ⟨mesh, hmesh, hsome⟩ := (Option.any_eq_true _ _).1 hgrafts
  obtain ⟨hstray, horder, hperm, hsuccess, hresolved, hdeclared⟩ := of_decide_eq_true hsome
  have hrun : (lamps mesh).resolveAll = .ok (run mesh).1 (run mesh).2 :=
    resolveAll_eq horder (Prod.eta (run mesh)).symm
  exact ⟨mesh, hmesh, hstray, lamps mesh, (run mesh).1, (run mesh).2, rfl, horder, hperm, hrun,
    hsuccess, hresolved, hdeclared⟩

end Package

end ClassBindings
