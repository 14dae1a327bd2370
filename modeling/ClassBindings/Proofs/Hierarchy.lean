import ClassBindings.Proofs.Coherence
import Mathlib.Data.List.Chain
import Mathlib.Logic.Relation

/-! # The hierarchy of a package

A class `HasBase` what its base link names, and `Derives` from all that base links lead to from it.
Both are read off the links alone, whether they lead to classes or not and whether or not they form
a loop; a class that derives from a position without a class `Misses` it.  The walk of
`ancestorChain` ends in either case: it lists what it has met until there was no more to meet, which
is a `Walk`, or names the position that is missed (`ancestorChain_cases`).

A lineage is what a class derives from, nearest first (`Lineage.mem_iff_derives`,
`Lineage.isChain`), and in a package without loops a walk is a lineage (`Walk.lineage`).  Reachable
packages have neither loops nor positions missed, and `isDerivedFrom` is a strict order on their
classes (`Reachable.hierarchy_strict`). -/
namespace ClassBindings.Package

variable {p : Package} {id base a b m : ClassId} {c : NativeClass} {seen : List ClassId}
  {next : Option ClassId}

/-- The base link of the class leads to `base`. -/
def HasBase (p : Package) (id base : ClassId) : Prop :=
  ∃ c, p.class? id = some c ∧ c.base = some base

/-- Base links, at least one, lead from the class to `ancestor`. -/
def Derives (p : Package) : (id ancestor : ClassId) → Prop := Relation.TransGen p.HasBase

/-- Base links lead from the class to a position without a class. -/
def Misses (p : Package) (id missing : ClassId) : Prop :=
  p.Derives id missing ∧ p.class? missing = none

/-- Base links form no loop. -/
def Loopless (p : Package) : Prop := ∀ id, ¬p.Derives id id

theorem HasBase.of_class? (hc : p.class? id = some c) (hbase : c.base = some base) :
    p.HasBase id base := ⟨c, hc, hbase⟩

/-- The base link of a class that is there is the one of its entry. -/
theorem hasBase_iff (hc : p.class? id = some c) : p.HasBase id base ↔ c.base = some base := by
  refine ⟨?_, HasBase.of_class? hc⟩
  rintro ⟨c', hc', hbase⟩
  rw [hc] at hc'
  cases hc'
  exact hbase

theorem HasBase.unique (h : p.HasBase id a) (h' : p.HasBase id b) : a = b := by
  obtain ⟨c, hc, ha⟩ := h
  exact Option.some.inj (ha.symm.trans ((hasBase_iff hc).1 h'))

/-- **At most one position is missed**: where there is no class the links end. -/
theorem Misses.unique (h : p.Misses id a) (h' : p.Misses id b) : a = b := by
  have hstop {x y : ClassId} (hx : p.class? x = none)
      (hxy : Relation.ReflTransGen p.HasBase x y) : x = y := by
    rcases Relation.ReflTransGen.cases_head hxy with rfl | ⟨z, ⟨c, hc, _⟩, _⟩
    · rfl
    · rw [hx] at hc
      cases hc
  have hright : Relator.RightUnique p.HasBase := fun _ _ _ => HasBase.unique
  rcases Relation.ReflTransGen.total_of_right_unique hright h.1.to_reflTransGen
    h'.1.to_reflTransGen with hab | hba
  · exact hstop h.2 hab
  · exact (hstop h'.2 hba).symm

/-! ## Walks -/

/-- Following bases from `next` on meets these classes, nearest first, until there is no base or one
comes that is in `seen` or was met before. -/
inductive Walk (p : Package) : (seen : List ClassId) → (next : Option ClassId) → List ClassId → Prop
  | root {seen : List ClassId} : Walk p seen none []
  | back {seen : List ClassId} {id : ClassId} (hid : id ∈ seen) : Walk p seen (some id) []
  | base {seen : List ClassId} {id : ClassId} {c : NativeClass} {ids : List ClassId}
      (hid : id ∉ seen) (hc : p.class? id = some c) (above : Walk p (id :: seen) c.base ids) :
      Walk p seen (some id) (id :: ids)

/-- Following bases from `next` on comes to `a`. -/
def Meets (p : Package) (next : Option ClassId) (a : ClassId) : Prop :=
  ∃ id, next = some id ∧ Relation.ReflTransGen p.HasBase id a

/-- What a class derives from is met from its base on. -/
theorem meets_base_iff (hc : p.class? id = some c) : p.Meets c.base a ↔ p.Derives id a := by
  rw [Derives, Relation.TransGen.head'_iff]
  exact exists_congr fun base => and_congr_left fun _ => (hasBase_iff hc).symm

/-- From a class on, all is met that is met from its base on. -/
theorem Meets.of_base (hc : p.class? id = some c) (h : p.Meets c.base a) : p.Meets (some id) a :=
  ⟨id, rfl, ((meets_base_iff hc).1 h).to_reflTransGen⟩

/-- **The walk ends in every package**, with what it has listed or at a position without a class. -/
theorem chainFrom_cases (p : Package) (seen : List ClassId) (next : Option ClassId) :
    (∃ ids, p.Walk seen next ids ∧ p.chainFrom seen next = .ok ids) ∨
      ∃ m, p.Meets next m ∧ p.class? m = none ∧
        p.chainFrom seen next = .error (.classNotFound m.text) := by
  induction seen, next using chainFrom.induct p with
  | case1 seen => exact Or.inl ⟨[], .root, chainFrom_none seen⟩
  | case2 seen id hid => exact Or.inl ⟨[], .back hid, chainFrom_of_mem hid⟩
  | case3 seen id hid hc =>
    exact Or.inr ⟨id, ⟨id, rfl, .refl⟩, hc, chainFrom_of_class?_none hid hc⟩
  | case4 seen id hid c hc ih =>
    rw [chainFrom_of_class?_some hid hc]
    rcases ih with ⟨ids, hids, hok⟩ | ⟨m, hmeets, hm, herror⟩
    · exact Or.inl ⟨id :: ids, .base hid hc hids, by rw [hok]; rfl⟩
    · exact Or.inr ⟨m, hmeets.of_base hc, hm, by rw [herror]; rfl⟩

/-- The walk of a class comes to an end, or to a position that is missed. -/
theorem ancestorChain_cases (hc : p.class? id = some c) :
    (∃ ids, p.Walk [id] c.base ids ∧ p.ancestorChain id = .ok ids) ∨
      ∃ m, p.Misses id m ∧ p.ancestorChain id = .error (.classNotFound m.text) := by
  have hwalk : p.ancestorChain id = p.chainFrom [id] c.base := by
    rw [ancestorChain, getClass_of_class? hc]
    rfl
  rw [hwalk]
  refine (p.chainFrom_cases [id] c.base).imp_right ?_
  rintro ⟨m, hmeets, hm, herror⟩
  exact ⟨m, ⟨(meets_base_iff hc).1 hmeets, hm⟩, herror⟩

/-! ## Lineages -/

/-- **A lineage is all that a class derives from.** -/
theorem Lineage.mem_iff_derives {ids : List ClassId} (hc : p.class? id = some c)
    (h : p.Lineage c.base ids) : a ∈ ids ↔ p.Derives id a := by
  constructor
  · generalize hnext : c.base = next at h
    intro ha
    induction h generalizing id c with
    | root => cases ha
    | base hb _ ih =>
      have hlink := HasBase.of_class? hc hnext
      rcases List.mem_cons.1 ha with rfl | ha
      · exact .single hlink
      · exact .head hlink (ih hb rfl ha)
  · intro ha
    induction ha using Relation.TransGen.head_induction_on generalizing c ids with
    | single hlink =>
      rw [(hasBase_iff hc).1 hlink] at h
      cases h
      exact List.mem_cons_self
    | head hlink _ ih =>
      rw [(hasBase_iff hc).1 hlink] at h
      cases h with
      | base hb habove => exact List.mem_cons_of_mem _ (ih hb habove)

/-- **A lineage goes from base to base**, so that it lists the nearest first. -/
theorem Lineage.isChain {ids : List ClassId} (hc : p.class? id = some c)
    (h : p.Lineage c.base ids) : List.IsChain p.HasBase (id :: ids) := by
  generalize hnext : c.base = next at h
  induction h generalizing id c with
  | root => exact .singleton id
  | base hb _ ih => exact .cons_cons (.of_class? hc hnext) (ih hb rfl)

/-- A class that has a lineage misses nothing. -/
theorem Lineage.not_misses {ids : List ClassId} (hc : p.class? id = some c)
    (h : p.Lineage c.base ids) : ¬p.Misses id m := by
  rintro ⟨hderives, hnone⟩
  obtain ⟨c', hc'⟩ := h.class?_of_mem ((h.mem_iff_derives hc).2 hderives)
  rw [hnone] at hc'
  cases hc'

theorem Grounded.loopless (h : p.Grounded) : p.Loopless := by
  intro id hloop
  obtain ⟨base, ⟨c, hc, _⟩, _⟩ := Relation.TransGen.head'_iff.1 hloop
  obtain ⟨ids, hids⟩ := h id c hc
  exact hids.notMem hc ((hids.mem_iff_derives hc).2 hloop)

/-- Base links that only go down some ranking form no loop. -/
theorem loopless_of_rank (rank : ClassId → Nat)
    (h : ∀ id c base, p.class? id = some c → c.base = some base → rank base < rank id) :
    p.Loopless := by
  have hderives {a b : ClassId} (hab : p.Derives a b) : rank b < rank a := by
    induction hab with
    | single hlink =>
      obtain ⟨c, hc, hbase⟩ := hlink
      exact h _ c _ hc hbase
    | tail _ hlink ih =>
      obtain ⟨c, hc, hbase⟩ := hlink
      exact (h _ c _ hc hbase).trans ih
  exact fun id hloop => Nat.lt_irrefl _ (hderives hloop)

/-! ## The walk in a package without loops -/

/-- **Without loops a walk is a lineage.**  It is never cut short: links lead here from all classes
set aside, so coming back to one of them would close a loop. -/
theorem Walk.lineage {ids : List ClassId} (hwalk : p.Walk seen next ids) (h : p.Loopless)
    (hseen : ∀ s ∈ seen, ∀ id, next = some id → p.Derives s id) : p.Lineage next ids := by
  induction hwalk with
  | root => exact .root
  | back hid => exact absurd (hseen _ hid _ rfl) (h _)
  | @base seen id c ids _ hc _ ih =>
    refine .base hc (ih fun s hs base hbase => ?_)
    have hlink := HasBase.of_class? hc hbase
    rcases List.mem_cons.1 hs with rfl | hs
    · exact .single hlink
    · exact (hseen s hs id rfl).tail hlink

/-- **A class without a loop above it has a lineage or misses a position**, and the walk says which.
-/
theorem Loopless.ancestorChain_cases (h : p.Loopless) (hc : p.class? id = some c) :
    (∃ ids, p.Lineage c.base ids ∧ p.ancestorChain id = .ok ids) ∨
      ∃ m, p.Misses id m ∧ p.ancestorChain id = .error (.classNotFound m.text) := by
  refine (Package.ancestorChain_cases hc).imp_left ?_
  rintro ⟨ids, hwalk, hok⟩
  refine ⟨ids, hwalk.lineage h fun s hs base hbase => ?_, hok⟩
  rw [List.mem_singleton] at hs
  subst hs
  exact .single (.of_class? hc hbase)

/-! ## Descent as a test -/

theorem isDerivedFrom_of_chain {chain : List ClassId} (hchain : p.ancestorChain id = .ok chain) :
    p.isDerivedFrom id a = .ok (chain.contains a) := by
  rw [isDerivedFrom, hchain]
  rfl

/-- **In a grounded package descent is decided**, for every class. -/
theorem Grounded.isDerivedFrom_ok (h : p.Grounded) (hc : p.class? id = some c) (a : ClassId) :
    ∃ answer, p.isDerivedFrom id a = .ok answer ∧ (answer = true ↔ p.Derives id a) := by
  obtain ⟨chain, hchain, hlineage⟩ := h.ancestorChain_ok hc
  refine ⟨chain.contains a, isDerivedFrom_of_chain hchain, ?_⟩
  rw [List.contains_iff_mem]
  exact hlineage.mem_iff_derives hc

theorem Grounded.isDerivedFrom_eq_true_iff (h : p.Grounded) :
    p.isDerivedFrom id a = .ok true ↔ p.Derives id a := by
  cases hc : p.class? id with
  | none =>
    have hwalk : p.isDerivedFrom id a = .error (.classNotFound id.text) := by
      rw [isDerivedFrom, ancestorChain, getClass_of_none hc]
      rfl
    rw [hwalk]
    refine ⟨fun he => (by cases he), fun hderives => ?_⟩
    obtain ⟨_, ⟨c, hc', _⟩, _⟩ := Relation.TransGen.head'_iff.1 hderives
    rw [hc] at hc'
    cases hc'
  | some c =>
    obtain ⟨answer, hok, hiff⟩ := h.isDerivedFrom_ok hc a
    rw [hok, ← hiff, Except.ok.injEq]

/-- What a class derives from is a class. -/
theorem Grounded.class?_of_derives (h : p.Grounded) (hderives : p.Derives id a) :
    ∃ b, p.class? a = some b := by
  obtain ⟨_, ⟨c, hc, _⟩, _⟩ := Relation.TransGen.head'_iff.1 hderives
  obtain ⟨ids, hids⟩ := h id c hc
  exact hids.class?_of_mem ((hids.mem_iff_derives hc).2 hderives)

/-- **The classes of a reachable package form a strict hierarchy.**  Base links lead to classes and
form no loop.  The ancestors of a class are found, and they are exactly what it derives from, each
listed once and as the base of the one before.  So to be derived from a class is irreflexive,
transitive and, as of two classes at most one is derived from the other, antisymmetric. -/
theorem Reachable.hierarchy_strict (h : p.Reachable) :
    (∀ id base, p.HasBase id base → ∃ b, p.class? base = some b) ∧
    (∀ id, ¬p.Derives id id) ∧
    (∀ id c, p.class? id = some c → ∃ chain, p.ancestorChain id = .ok chain ∧
      (∀ a, a ∈ chain ↔ p.Derives id a) ∧ List.IsChain p.HasBase (id :: chain) ∧
      (id :: chain).Nodup) ∧
    (∀ id c, p.class? id = some c → ∀ a,
      ∃ answer, p.isDerivedFrom id a = .ok answer ∧ (answer = true ↔ p.Derives id a)) ∧
    (∀ id c, p.class? id = some c → p.isDerivedFrom id id = .ok false) ∧
    (∀ a b c, p.isDerivedFrom a b = .ok true → p.isDerivedFrom b c = .ok true →
      p.isDerivedFrom a c = .ok true) ∧
    ∀ a b, p.isDerivedFrom a b = .ok true → p.isDerivedFrom b a = .ok false := by
  have hg := h.coherent.toGrounded
  have hnot {a b : ClassId} {c : NativeClass} (hc : p.class? a = some c)
      (hab : ¬p.Derives a b) : p.isDerivedFrom a b = .ok false := by
    obtain ⟨answer, hok, hiff⟩ := hg.isDerivedFrom_ok hc b
    rw [hok, Bool.eq_false_iff.2 fun htrue => hab (hiff.1 htrue)]
  refine ⟨fun id base hlink => hg.class?_of_derives (.single hlink), hg.loopless, ?_,
    fun id c hc => hg.isDerivedFrom_ok hc, fun id c hc => hnot hc (hg.loopless id), ?_, ?_⟩
  · intro id c hc
    obtain ⟨chain, hchain, hlineage⟩ := hg.ancestorChain_ok hc
    exact ⟨chain, hchain, fun a => hlineage.mem_iff_derives hc, hlineage.isChain hc,
      List.nodup_cons.2 ⟨hlineage.notMem hc, hlineage.nodup⟩⟩
  · intro a b c hab hbc
    rw [hg.isDerivedFrom_eq_true_iff] at hab hbc ⊢
    exact hab.trans hbc
  · intro a b hab
    rw [hg.isDerivedFrom_eq_true_iff] at hab
    obtain ⟨c, hc⟩ := hg.class?_of_derives hab
    exact hnot hc fun hba => hg.loopless a (hab.trans hba)

/-- Skins derive from meshes and these from nodes, so nodes cannot be derived from skins; asking for
that is refused and leaves the hierarchy as it was. -/
theorem hierarchy_strict_skin :
    ∃ p : Package, p.Reachable ∧
      p = Operation.run meshPackage [.registerClass ⟨0⟩ "Skin" "scene::Skin",
        .setBase ⟨2⟩ (some ⟨1⟩), .setBase ⟨0⟩ (some ⟨2⟩)] ∧
      p.ancestorChain ⟨2⟩ = .ok [⟨1⟩, ⟨0⟩] ∧ p.Derives ⟨2⟩ ⟨0⟩ ∧
      p.isDerivedFrom ⟨2⟩ ⟨0⟩ = .ok true ∧ p.isDerivedFrom ⟨0⟩ ⟨2⟩ = .ok false := by
  have hreachable : (Operation.run meshPackage [.registerClass ⟨0⟩ "Skin" "scene::Skin",
      .setBase ⟨2⟩ (some ⟨1⟩), .setBase ⟨0⟩ (some ⟨2⟩)]).Reachable :=
    reachable_meshPackage.run (by decide)
  refine ⟨_, hreachable, rfl, ?_⟩
  generalize hp : Operation.run meshPackage [.registerClass ⟨0⟩ "Skin" "scene::Skin",
    .setBase ⟨2⟩ (some ⟨1⟩), .setBase ⟨0⟩ (some ⟨2⟩)] = p at hreachable
  have hchain : p.ancestorChain ⟨2⟩ = .ok [⟨1⟩, ⟨0⟩] := by
    rw [← hp]
    decide +kernel
  have hderived : p.isDerivedFrom ⟨2⟩ ⟨0⟩ = .ok true := isDerivedFrom_of_chain hchain
  obtain ⟨_, _, hchains, _, _, _, hasymm⟩ := hreachable.hierarchy_strict
  have hclass : (p.class? ⟨2⟩).isSome := by
    rw [← hp]
    decide +kernel
  obtain ⟨c, hc⟩ := Option.isSome_iff_exists.1 hclass
  obtain ⟨chain, hchain', hmem, _⟩ := hchains ⟨2⟩ c hc
  rw [hchain] at hchain'
  cases hchain'
  exact ⟨hchain, (hmem ⟨0⟩).1 (by decide), hderived, hasymm _ _ hderived⟩

end ClassBindings.Package
