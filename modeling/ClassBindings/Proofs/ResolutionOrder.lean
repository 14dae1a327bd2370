import ClassBindings.Proofs.FinishOrder
import ClassBindings.Proofs.Hierarchy
import Mathlib.Data.List.Nodup

/-! # The order of resolution

`resolutionOrder` is the topological order of one graph, with a link to each class from its base
(`linkGraph`), unless the link of some class has no target (`resolutionOrder_cases`).  All have one
where each entry carries its own position (`resolutionOrder_eq`).  What reaches a class in the graph
is then what the class derives from, so a package without loops has an order, and it lists each
class once, after its base if that is a class (`Loopless.resolutionOrder_ok`).  In a grounded package
every base is one (`Grounded.resolutionOrder_ok`).  The order depends on the base links only
(`resolutionOrder_congr`). -/
namespace ClassBindings.Package

variable {p q : Package} {id : ClassId} {c : NativeClass}

/-- Each entry carries the position that it is at. -/
def OwnPositions (p : Package) : Prop := ∀ id c, p.class? id = some c → c.id = id

theorem Coherent.ownPositions (h : p.Coherent) : p.OwnPositions := fun id c hc => (h id c hc).id_eq

/-- The link that a base makes in a package of this many classes; none where it is no position. -/
def link? (size : Nat) (id : ClassId) (base : Option ClassId) : Option (Nat × Nat) :=
  base.bind fun base => if base.index < size then some (base.index, id.index) else none

theorem link?_eq_some_iff {size a b : Nat} {base : Option ClassId} :
    link? size id base = some (a, b) ↔ id = ⟨b⟩ ∧ base = some ⟨a⟩ ∧ a < size := by
  rcases id with ⟨i⟩
  rcases base with _ | ⟨j⟩
  · simp [link?]
  · simp only [link?, Option.bind_some, Option.ite_none_right_eq_some, Option.some.injEq,
      Prod.mk.injEq, ClassId.mk.injEq]
    constructor
    · rintro ⟨hlt, rfl, rfl⟩
      exact ⟨rfl, rfl, hlt⟩
    · rintro ⟨rfl, rfl, hlt⟩
      exact ⟨hlt, rfl, rfl⟩

/-- The classes by position, with a link to each from its base. -/
def linkGraph (p : Package) : LinkGraph where
  size := p.classes.length
  links := p.classes.filterMap fun c => link? p.classes.length c.id c.base

/-- If there is a link to the class from its base, the class carries a position for it to lead to. -/
def Targeted (p : Package) (c : NativeClass) : Prop :=
  ∀ base, c.base = some base → base.index < p.classes.length → c.id.index < p.classes.length

theorem baseLinks_cons_of_targeted (h : p.Targeted c) (rest : List NativeClass) :
    p.baseLinks (c :: rest) =
      (p.baseLinks rest).map ((link? p.classes.length c.id c.base).toList ++ ·) := by
  have hkept (links : Except OrderFault (List (Nat × Nat))) :
      links = links.map (([] : List (Nat × Nat)) ++ ·) := by cases links <;> rfl
  rw [baseLinks]
  cases hbase : c.base with
  | none => exact hkept _
  | some base =>
    by_cases hlt : base.index < p.classes.length
    · simp only [link?, Option.bind_some, hlt, if_true, h base hbase hlt]
      rfl
    · simp only [link?, Option.bind_some, hlt, if_false]
      exact hkept _

theorem baseLinks_cons_of_not_targeted (h : ¬p.Targeted c) (rest : List NativeClass) :
    p.baseLinks (c :: rest) = .error (.stray c.id) := by
  simp only [Targeted, not_forall] at h
  obtain ⟨base, hbase, hlt, hnot⟩ := h
  simp only [baseLinks, hbase, hlt, hnot, if_true, if_false]

/-- Either each link has a target, or an entry whose link has none is named. -/
theorem baseLinks_cases (p : Package) (classes : List NativeClass) :
    ((∀ c ∈ classes, p.Targeted c) ∧ p.baseLinks classes =
      .ok (classes.filterMap fun c => link? p.classes.length c.id c.base)) ∨
    ∃ c ∈ classes, ¬p.Targeted c ∧ p.baseLinks classes = .error (.stray c.id) := by
  induction classes with
  | nil => exact Or.inl ⟨by simp, rfl⟩
  | cons c rest ih =>
    by_cases hc : p.Targeted c
    · rw [baseLinks_cons_of_targeted hc]
      rcases ih with ⟨hall, hok⟩ | ⟨d, hd, hnot, herror⟩
      · refine Or.inl ⟨List.forall_mem_cons.2 ⟨hc, hall⟩, ?_⟩
        rw [hok, List.filterMap_cons]
        cases link? p.classes.length c.id c.base <;> rfl
      · rw [herror]
        exact Or.inr ⟨d, List.mem_cons_of_mem _ hd, hnot, rfl⟩
    · exact Or.inr ⟨c, List.mem_cons_self, hc, baseLinks_cons_of_not_targeted hc rest⟩

/-- Links that have a target lead from classes to classes. -/
theorem linkGraph_inRange (h : ∀ c ∈ p.classes, p.Targeted c) : p.linkGraph.InRange := by
  intro a b hab
  obtain ⟨c, hc, hlink⟩ := List.mem_filterMap.1 hab
  obtain ⟨hid, hbase, hlt⟩ := link?_eq_some_iff.1 hlink
  have htarget := h c hc ⟨a⟩ hbase hlt
  rw [hid] at htarget
  exact ⟨hlt, htarget⟩

/-- **Either each link has a target**, and the order is that of the link graph, or an entry whose
link has none is named. -/
theorem resolutionOrder_cases (p : Package) :
    ((∀ c ∈ p.classes, p.Targeted c) ∧ p.resolutionOrder =
      match p.linkGraph.topologicalOrder with
      | .ok order => .ok (order.map p.carriedId)
      | .error position => .error (.loop (p.carriedId position))) ∨
    ∃ c ∈ p.classes, ¬p.Targeted c ∧ p.resolutionOrder = .error (.stray c.id) := by
  rw [resolutionOrder]
  rcases p.baseLinks_cases p.classes with ⟨hall, hok⟩ | ⟨c, hc, hnot, herror⟩
  · rw [hok]
    exact Or.inl ⟨hall, rfl⟩
  · rw [herror]
    exact Or.inr ⟨c, hc, hnot, rfl⟩

theorem index_lt (h : p.OwnPositions) (hc : c ∈ p.classes) : c.id.index < p.classes.length := by
  obtain ⟨i, hi, rfl⟩ := List.mem_iff_getElem.1 hc
  rw [h ⟨i⟩ p.classes[i] (List.getElem?_eq_getElem hi)]
  exact hi

theorem OwnPositions.targeted (h : p.OwnPositions) : ∀ c ∈ p.classes, p.Targeted c :=
  fun _ hc _ _ _ => index_lt h hc

theorem carriedId_eq (h : p.OwnPositions) (position : Nat) : p.carriedId position = ⟨position⟩ := by
  rw [carriedId]
  cases hc : p.classes[position]? with
  | none => rfl
  | some c => exact h ⟨position⟩ c hc

/-- Where each entry carries its own position, the order is one of positions. -/
theorem resolutionOrder_eq (h : p.OwnPositions) :
    p.resolutionOrder =
      match p.linkGraph.topologicalOrder with
      | .ok order => .ok (order.map ClassId.mk)
      | .error position => .error (.loop ⟨position⟩) := by
  have hcarried : p.carriedId = ClassId.mk := funext (carriedId_eq h)
  rcases p.resolutionOrder_cases with ⟨_, horder⟩ | ⟨c, hc, hnot, _⟩
  · rw [horder, hcarried]
  · exact absurd (h.targeted c hc) hnot

/-! ## Links and descent -/

theorem link_iff (h : p.OwnPositions) {a b : Nat} :
    p.linkGraph.Link a b ↔
      ∃ c, p.class? ⟨b⟩ = some c ∧ c.base = some ⟨a⟩ ∧ a < p.classes.length := by
  rw [LinkGraph.Link, linkGraph, List.mem_filterMap]
  constructor
  · rintro ⟨c, hc, hab⟩
    obtain ⟨hid, hbase, hlt⟩ := link?_eq_some_iff.1 hab
    obtain ⟨i, hi, rfl⟩ := List.mem_iff_getElem.1 hc
    have hat : p.class? ⟨i⟩ = some p.classes[i] := List.getElem?_eq_getElem hi
    have hi' : (⟨i⟩ : ClassId) = ⟨b⟩ := (h _ _ hat).symm.trans hid
    rw [hi'] at hat
    exact ⟨_, hat, hbase, hlt⟩
  · rintro ⟨c, hc, hbase, hlt⟩
    exact ⟨c, mem_classes_of_class? hc, link?_eq_some_iff.2 ⟨h _ c hc, hbase, hlt⟩⟩

/-- What reaches a class by links is what the class derives from. -/
theorem derives_of_reaches (h : p.OwnPositions) {a b : Nat} (hab : p.linkGraph.Reaches a b) :
    p.Derives ⟨b⟩ ⟨a⟩ := by
  induction hab with
  | single hlink =>
    obtain ⟨c, hc, hbase, _⟩ := (link_iff h).1 hlink
    exact .single (.of_class? hc hbase)
  | tail _ hlink ih =>
    obtain ⟨c, hc, hbase, _⟩ := (link_iff h).1 hlink
    exact .head (.of_class? hc hbase) ih

theorem linkGraph_acyclic (h : p.OwnPositions) (hl : p.Loopless) (v : Nat) :
    ¬p.linkGraph.Reaches v v := fun hv => hl ⟨v⟩ (derives_of_reaches h hv)

/-! ## Positions -/

/-- The positions of the classes. -/
def positions (p : Package) : List ClassId := (List.range p.classes.length).map ClassId.mk

theorem length_positions (p : Package) : p.positions.length = p.classes.length := by
  simp [positions]

theorem nodup_positions (p : Package) : p.positions.Nodup :=
  List.nodup_range.map fun _ _ h => ClassId.mk.inj h

theorem mem_positions : id ∈ p.positions ↔ id.index < p.classes.length := by
  simp only [positions, List.mem_map, List.mem_range]
  constructor
  · rintro ⟨i, hi, rfl⟩
    exact hi
  · exact fun hlt => ⟨id.index, hlt, rfl⟩

theorem lt_length_iff : id.index < p.classes.length ↔ ∃ c, p.class? id = some c :=
  ⟨fun hlt => ⟨_, List.getElem?_eq_getElem hlt⟩, fun ⟨_, hc⟩ => lt_length_of_class? hc⟩

/-! ## The order -/

/-- The list has every class once, each after its base if that is a class. -/
structure KnownBasesFirst (p : Package) (ids : List ClassId) : Prop where
  nodup : ids.Nodup
  length : ids.length = p.classes.length
  mem_iff : ∀ id, id ∈ ids ↔ ∃ c, p.class? id = some c
  base : ∀ done id rest, ids = done ++ id :: rest → ∀ base, p.HasBase id base →
    ∀ b, p.class? base = some b → base ∈ done

/-- An order lists the positions of the package. -/
theorem KnownBasesFirst.perm {ids : List ClassId} (h : p.KnownBasesFirst ids) :
    ids.Perm p.positions := by
  refine (List.perm_ext_iff_of_nodup h.nodup p.nodup_positions).2 fun id => ?_
  rw [h.mem_iff, mem_positions, lt_length_iff]

/-- **Without loops there is an order**, and it lists every class once, each after its base if that
is a class. -/
theorem Loopless.resolutionOrder_ok (hl : p.Loopless) (h : p.OwnPositions) :
    ∃ ids, p.resolutionOrder = .ok ids ∧ p.KnownBasesFirst ids := by
  obtain ⟨order, horder, htop⟩ :=
    LinkGraph.topologicalOrder_of_acyclic (linkGraph_inRange h.targeted)
      (linkGraph_acyclic h hl)
  have hok : p.resolutionOrder = .ok (order.map ClassId.mk) := by rw [resolutionOrder_eq h, horder]
  have hperm : (order.map ClassId.mk).Perm p.positions := htop.perm.map ClassId.mk
  refine ⟨order.map ClassId.mk, hok, hperm.nodup_iff.2 p.nodup_positions,
    hperm.length_eq.trans p.length_positions, fun id => ?_, ?_⟩
  · exact hperm.mem_iff.trans (mem_positions.trans lt_length_iff)
  · rintro done id rest hsplit base ⟨c, hc, hbase⟩ b hb
    obtain ⟨before, after, rfl, rfl, hafter⟩ := List.map_eq_append_iff.1 hsplit
    obtain ⟨v, after', rfl, rfl, _⟩ := List.map_eq_cons_iff.1 hafter
    have hlink : p.linkGraph.Link base.index v :=
      (link_iff h).2 ⟨c, hc, hbase, lt_length_of_class? hb⟩
    exact List.mem_map.2 ⟨base.index, htop.link before v after' rfl base.index hlink, rfl⟩

/-- The list has every class once, each after its base. -/
structure BasesFirst (p : Package) (ids : List ClassId) : Prop where
  nodup : ids.Nodup
  length : ids.length = p.classes.length
  mem_iff : ∀ id, id ∈ ids ↔ ∃ c, p.class? id = some c
  base : ∀ done id rest, ids = done ++ id :: rest → ∀ c, p.class? id = some c →
    ∀ base, c.base = some base → base ∈ done

/-- **The order lists every class once, each after its base.** -/
theorem Grounded.resolutionOrder_ok (hg : p.Grounded) (h : p.OwnPositions) :
    ∃ ids, p.resolutionOrder = .ok ids ∧ p.BasesFirst ids := by
  obtain ⟨ids, hids, hfirst⟩ := hg.loopless.resolutionOrder_ok h
  refine ⟨ids, hids, hfirst.nodup, hfirst.length, hfirst.mem_iff, ?_⟩
  intro done id rest hsplit c hc base hbase
  have hlink := HasBase.of_class? hc hbase
  obtain ⟨b, hb⟩ := hg.class?_of_derives (.single hlink)
  exact hfirst.base done id rest hsplit base hlink b hb

/-- **The order depends on base links only.** -/
theorem resolutionOrder_congr (hp : p.OwnPositions) (hq : q.OwnPositions) (h : p.SameBases q) :
    q.resolutionOrder = p.resolutionOrder := by
  have hlinks (r : Package) : r.linkGraph = ⟨(r.classes.map fun c => (c.id, c.base)).length,
      (r.classes.map fun c => (c.id, c.base)).filterMap fun c =>
        link? (r.classes.map fun c => (c.id, c.base)).length c.1 c.2⟩ := by
    rw [List.length_map, List.filterMap_map]
    rfl
  have hmap : (q.classes.map fun c => (c.id, c.base)) = p.classes.map fun c => (c.id, c.base) := by
    refine List.ext_getElem? fun i => ?_
    rw [List.getElem?_map, List.getElem?_map]
    show (q.class? ⟨i⟩).map _ = (p.class? ⟨i⟩).map _
    cases hc : p.class? ⟨i⟩ with
    | none => rw [h.class?_eq_none hc]
    | some c =>
      obtain ⟨d, hd, hbase⟩ := h.class?_eq_some hc
      rw [hd, Option.map_some, Option.map_some, hbase, hp _ c hc, hq _ d hd]
  rw [resolutionOrder_eq hp, resolutionOrder_eq hq, hlinks q, hlinks p, hmap]

end ClassBindings.Package
