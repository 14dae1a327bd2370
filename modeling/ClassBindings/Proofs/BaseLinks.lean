import ClassBindings.Proofs.BaseLoops

/-! # Base links in any package

Entries put in place as a whole may have any base, so base links may lead nowhere and may form
loops.  The walk of `ancestorChain` ends all the same (`ancestorChain_cases`), since it goes on only
from classes that it has not met.

Nothing leads out of a walk and the class it started from (`Walk.closed`, `ancestorChain_closed`),
and that is all that is needed.  A class derives from nothing else, so the walk lists everything
(`ancestorChain_exact`); and a new base whose walk does not list the class cannot lead back to it,
since none of the links on the way has changed (`setBase_exact`). -/
namespace ClassBindings.Package

variable {p : Package} {id a b m : ClassId} {c : NativeClass} {seen chain : List ClassId}
  {next : Option ClassId}

/-! ## What a walk lists -/

namespace Walk

variable {ids : List ClassId}

/-- A walk lists classes of the package. -/
theorem class?_of_mem (h : p.Walk seen next ids) (ha : a ∈ ids) : ∃ c, p.class? a = some c := by
  induction h with
  | root => cases ha
  | back _ => cases ha
  | base _ hc _ ih =>
    rcases List.mem_cons.1 ha with rfl | ha
    · exact ⟨_, hc⟩
    · exact ih ha

/-- A walk lists none of the classes set aside. -/
theorem notMem_seen (h : p.Walk seen next ids) (ha : a ∈ ids) : a ∉ seen := by
  induction h with
  | root => cases ha
  | back _ => cases ha
  | base hid _ _ ih =>
    rcases List.mem_cons.1 ha with rfl | ha
    · exact hid
    · exact fun hmem => ih ha (List.mem_cons_of_mem _ hmem)

/-- A walk lists no class twice: it sets each aside that it lists. -/
theorem nodup (h : p.Walk seen next ids) : ids.Nodup := by
  induction h with
  | root => exact List.nodup_nil
  | back _ => exact List.nodup_nil
  | base _ _ above ih =>
    exact List.nodup_cons.2 ⟨fun hmem => above.notMem_seen hmem List.mem_cons_self, ih⟩

/-- Nor does a walk list the class that it was set forth from. -/
theorem nodup_cons (h : p.Walk (id :: seen) next ids) : (id :: ids).Nodup :=
  List.nodup_cons.2 ⟨fun hmem => h.notMem_seen hmem List.mem_cons_self, h.nodup⟩

/-- A walk lists what is met. -/
theorem meets (h : p.Walk seen next ids) (ha : a ∈ ids) : p.Meets next a := by
  induction h with
  | root => cases ha
  | back _ => cases ha
  | base _ hc _ ih =>
    rcases List.mem_cons.1 ha with rfl | ha
    · exact ⟨_, rfl, .refl⟩
    · exact (ih ha).of_base hc

/-- A walk goes from base to base. -/
theorem isChain (h : p.Walk seen next ids) (hc : p.class? id = some c) (hbase : c.base = next) :
    List.IsChain p.HasBase (id :: ids) := by
  induction h generalizing id c with
  | root => exact .singleton id
  | back _ => exact .singleton id
  | base _ hb _ ih => exact .cons_cons (.of_class? hc hbase) (ih hb rfl)

/-- A walk begins where it should, unless that is set aside. -/
theorem head_mem (h : p.Walk seen next ids) (hnext : next = some a) : a ∈ seen ∨ a ∈ ids := by
  cases h with
  | root => cases hnext
  | back hid =>
    cases hnext
    exact Or.inl hid
  | base _ _ _ =>
    cases hnext
    exact Or.inr List.mem_cons_self

/-- **Links do not lead out of a walk**, except to classes set aside. -/
theorem closed (h : p.Walk seen next ids) (ha : a ∈ ids) (hab : p.HasBase a b) :
    b ∈ seen ∨ b ∈ ids := by
  induction h with
  | root => cases ha
  | back _ => cases ha
  | @base seen id c ids _ hc above ih =>
    -- Where the walk is set forth, this class is set aside, and it lists the class as well.
    have hback : b ∈ id :: seen ∨ b ∈ ids → b ∈ seen ∨ b ∈ id :: ids := by
      rw [List.mem_cons, List.mem_cons, or_assoc, or_left_comm]
      exact fun hor => hor
    rcases List.mem_cons.1 ha with rfl | ha
    · exact hback (above.head_mem ((hasBase_iff hc).1 hab))
    · exact hback (ih ha)

end Walk

theorem walk_of_ancestorChain (hc : p.class? id = some c)
    (hchain : p.ancestorChain id = .ok chain) : p.Walk [id] c.base chain := by
  rcases ancestorChain_cases hc with ⟨chain', hwalk, hok⟩ | ⟨m, _, herror⟩
  · rw [hchain] at hok
    cases hok
    exact hwalk
  · rw [hchain] at herror
    cases herror

/-- **Links do not lead out of a class and its ancestors.** -/
theorem ancestorChain_closed (hchain : p.ancestorChain id = .ok chain) (ha : a ∈ id :: chain)
    (hab : p.HasBase a b) : b ∈ id :: chain := by
  obtain ⟨c, hc⟩ := class?_of_ancestorChain hchain
  have hwalk := walk_of_ancestorChain hc hchain
  have hor : b ∈ [id] ∨ b ∈ chain := by
    rcases List.mem_cons.1 ha with rfl | ha
    · exact hwalk.head_mem ((hasBase_iff hc).1 hab)
    · exact hwalk.closed ha hab
  rwa [List.mem_singleton, ← List.mem_cons] at hor

/-- What links do not lead out of has all that a class derives from, if it has the base of the
class. -/
theorem Derives.mem_of_closed {ids : List ClassId} (h : p.Derives id a)
    (hbase : ∀ b, p.HasBase id b → b ∈ ids)
    (hclosed : ∀ x ∈ ids, ∀ y, p.HasBase x y → y ∈ ids) : a ∈ ids := by
  induction h with
  | single hlink => exact hbase _ hlink
  | tail _ hlink ih => exact hclosed _ ih _ hlink

/-- **What a class derives from, other than itself, is what its walk lists.** -/
theorem mem_ancestorChain_iff (hchain : p.ancestorChain id = .ok chain) :
    a ∈ chain ↔ a ≠ id ∧ p.Derives id a := by
  obtain ⟨c, hc⟩ := class?_of_ancestorChain hchain
  have hwalk := walk_of_ancestorChain hc hchain
  constructor
  · intro ha
    refine ⟨?_, (meets_base_iff hc).1 (hwalk.meets ha)⟩
    rintro rfl
    exact hwalk.notMem_seen ha List.mem_cons_self
  · rintro ⟨hne, hderives⟩
    have hmem : a ∈ id :: chain :=
      hderives.mem_of_closed (fun _ => ancestorChain_closed hchain List.mem_cons_self)
        fun _ hx _ => ancestorChain_closed hchain hx
    exact (List.mem_cons.1 hmem).resolve_left hne

/-- Where the walk comes to an end, nothing is missed. -/
theorem not_misses_of_ancestorChain (hchain : p.ancestorChain id = .ok chain) :
    ¬p.Misses id m := by
  rintro ⟨hderives, hm⟩
  obtain ⟨c, hc⟩ := class?_of_ancestorChain hchain
  have hne : m ≠ id := by
    rintro rfl
    rw [hm] at hc
    cases hc
  obtain ⟨d, hd⟩ := (walk_of_ancestorChain hc hchain).class?_of_mem
    ((mem_ancestorChain_iff hchain).2 ⟨hne, hderives⟩)
  rw [hm] at hd
  cases hd

/-- A class has fewer ancestors than there are classes. -/
theorem length_ancestorChain_lt (hchain : p.ancestorChain id = .ok chain) :
    chain.length < p.classes.length := by
  obtain ⟨c, hc⟩ := class?_of_ancestorChain hchain
  have hwalk := walk_of_ancestorChain hc hchain
  have hsub : id :: chain ⊆ p.positions := by
    intro a ha
    rw [mem_positions, lt_length_iff]
    rcases List.mem_cons.1 ha with rfl | ha
    · exact ⟨c, hc⟩
    · exact hwalk.class?_of_mem ha
  have hle := (List.subperm_of_subset hwalk.nodup_cons hsub).length_le
  rwa [length_positions, List.length_cons] at hle

/-- **The walk is exact in every package**, whether base links lead to classes or not and whether or
not they form loops.  If following bases from a class comes to a position without a class, that is
the only such position, and the walk is refused for it.  Otherwise the walk lists what the class
derives from, other than the class itself, each once and as the base of the one before; it takes
fewer steps than there are classes. -/
theorem ancestorChain_exact (hc : p.class? id = some c) :
    (∀ m, p.Misses id m → (∀ m', p.Misses id m' → m' = m) ∧
      p.ancestorChain id = .error (.classNotFound m.text)) ∧
    ((∀ m, ¬p.Misses id m) → ∃ chain, p.ancestorChain id = .ok chain ∧
      (∀ a, a ∈ chain ↔ a ≠ id ∧ p.Derives id a) ∧
      List.IsChain p.HasBase (id :: chain) ∧ (id :: chain).Nodup ∧
      chain.length < p.classes.length) := by
  rcases ancestorChain_cases hc with ⟨chain, hwalk, hchain⟩ | ⟨m, hmisses, herror⟩
  · refine ⟨fun m hm => absurd hm (not_misses_of_ancestorChain hchain), fun _ => ?_⟩
    exact ⟨chain, hchain, fun a => mem_ancestorChain_iff hchain, hwalk.isChain hc rfl,
      hwalk.nodup_cons, length_ancestorChain_lt hchain⟩
  · refine ⟨fun m' hm' => ⟨fun _ h => h.unique hm', ?_⟩, fun hnone => absurd hmisses (hnone m)⟩
    rw [hm'.unique hmisses]
    exact herror

/-- Skins come to a loop that they are not on, and lamps to a position without a class. -/
theorem ancestorChain_exact_looped :
    ∃ (p : Package) (skin lamp : NativeClass),
      p = Operation.run { name := "scene" } loopedHistory ∧
      p.class? ⟨0⟩ = some skin ∧ p.class? ⟨3⟩ = some lamp ∧
      p.ancestorChain ⟨0⟩ = .ok [⟨1⟩, ⟨2⟩] ∧
      (∀ a, a ∈ [⟨1⟩, ⟨2⟩] ↔ a ≠ ⟨0⟩ ∧ p.Derives ⟨0⟩ a) ∧
      p.Misses ⟨3⟩ ⟨9⟩ ∧ p.ancestorChain ⟨3⟩ = .error (.classNotFound "class_9") := by
  generalize hp : Operation.run { name := "scene" } loopedHistory = p
  have hchain : p.ancestorChain ⟨0⟩ = .ok [⟨1⟩, ⟨2⟩] := by
    subst hp
    decide +kernel
  have hlamp : (p.class? ⟨3⟩).any (·.base = some ⟨9⟩) ∧ p.class? ⟨9⟩ = none := by
    subst hp
    decide +kernel
  obtain ⟨skin, hskin⟩ := class?_of_ancestorChain hchain
  obtain ⟨lamp, hlamp', hbase⟩ := (Option.any_eq_true _ _).1 hlamp.1
  have hmisses : p.Misses ⟨3⟩ ⟨9⟩ :=
    ⟨.single (.of_class? hlamp' (of_decide_eq_true hbase)), hlamp.2⟩
  obtain ⟨_, hends⟩ := ancestorChain_exact hskin
  obtain ⟨hstrays, _⟩ := ancestorChain_exact hlamp'
  obtain ⟨chain, hok, hmem, _⟩ := hends fun _ => not_misses_of_ancestorChain hchain
  rw [hchain] at hok
  cases hok
  exact ⟨p, skin, lamp, rfl, hskin, hlamp', hchain, hmem, hmisses, (hstrays _ hmisses).2⟩

/-! ## A new base -/

/-- A class that is not the one that was put has the base that it had. -/
theorem hasBase_putClass_of_ne {d : NativeClass} (hne : a ≠ id) :
    (p.putClass id d).HasBase a b ↔ p.HasBase a b := by
  rw [HasBase, HasBase, class?_putClass_of_ne hne]

/-- **A base is set exactly if the class is declared and the base passes its check.** -/
theorem setBase_eq_ok_iff {q : Package} {base : Option ClassId} :
    setBase id base p = .ok () q ↔ ∃ c, p.class? id = some c ∧ c.phase = .declared ∧
      p.checkBase c id base = .ok () ∧ q = p.putClass id { c with base } := by
  simp only [setBase, Edit.bind_get, Edit.bind_check_eq_ok_iff, getClass_eq_ok_iff,
    NativeClass.checkDeclared_eq_ok_iff, Edit.set_apply, exists_const]
  refine exists_congr fun c => and_congr_right fun _ => and_congr_right fun _ => ?_
  constructor
  · rintro ⟨_, hbase, h⟩
    cases h
    exact ⟨hbase, rfl⟩
  · rintro ⟨hbase, rfl⟩
    exact ⟨(), hbase, rfl⟩

theorem atomic_setBase (id : ClassId) (base : Option ClassId) : Edit.Atomic (setBase id base) :=
  .bind_get fun _ => .bind_check fun _ => .bind_check fun _ => .bind_check fun _ => .set _

/-- **A base that passes its check does not lead back to the class.** -/
theorem not_derives_of_checkBase {base : Option ClassId} (hc : p.class? id = some c)
    (hbase : p.checkBase c id base = .ok ()) :
    ¬(p.putClass id { c with base }).Derives id id := by
  have hself {b : ClassId} (hlink : (p.putClass id { c with base }).HasBase id b) :
      base = some b := (hasBase_iff (class?_putClass_self hc _)).1 hlink
  intro hloop
  cases base with
  | none =>
    obtain ⟨b, hlink, _⟩ := Relation.TransGen.head'_iff.1 hloop
    cases hself hlink
  | some base =>
    obtain ⟨hne, _, chain, _, hchain, hnot⟩ := checkBase_some_eq_ok_iff.1 hbase
    have hid : id ∉ base :: chain := fun hmem =>
      hnot ((List.mem_cons.1 hmem).resolve_left hne.symm)
    -- The links of the base and its ancestors are the old ones, as the class is not among these.
    refine hid (hloop.mem_of_closed (fun b hlink => ?_) fun x hx y hxy => ?_)
    · cases hself hlink
      exact List.mem_cons_self
    · have hxid : x ≠ id := fun he => hid (he ▸ hx)
      exact ancestorChain_closed hchain hx ((hasBase_putClass_of_ne hxid).1 hxy)

/-- **Setting a base is exact in every package**, whether base links lead to classes or not and
whether or not they form loops.  A base is accepted exactly if the class is there and declared, the
base is a class, another one, its ancestors are found, and the class is not among them; no base at
all is accepted exactly if the class is there and declared.  Then the base of this class is changed
and nothing else, and links do not lead from the class back to it.  A refusal changes nothing. -/
theorem setBase_exact (p : Package) (id : ClassId) :
    (∀ base, (∃ q, setBase id (some base) p = .ok () q) ↔
      (∃ c, p.class? id = some c ∧ c.phase = .declared) ∧ (∃ b, p.class? base = some b) ∧
        base ≠ id ∧ ∃ chain, p.ancestorChain base = .ok chain ∧ id ∉ chain) ∧
    ((∃ q, setBase id none p = .ok () q) ↔ ∃ c, p.class? id = some c ∧ c.phase = .declared) ∧
    (∀ base q, setBase id base p = .ok () q →
      ∃ c, p.class? id = some c ∧ q = p.putClass id { c with base } ∧ ¬q.Derives id id) ∧
    ∀ base e q, setBase id base p = .error e q → q = p := by
  refine ⟨fun base => ?_, ?_, fun base q h => ?_, fun base => atomic_setBase id base p⟩
  · simp only [setBase_eq_ok_iff, checkBase_some_eq_ok_iff]
    constructor
    · rintro ⟨_, c, hc, hphase, ⟨hne, b, chain, hb, hchain⟩, _⟩
      exact ⟨⟨c, hc, hphase⟩, ⟨b, hb⟩, hne, chain, hchain⟩
    · rintro ⟨⟨c, hc, hphase⟩, ⟨b, hb⟩, hne, chain, hchain⟩
      exact ⟨_, c, hc, hphase, ⟨hne, b, chain, hb, hchain⟩, rfl⟩
  · simp only [setBase_eq_ok_iff]
    constructor
    · rintro ⟨_, c, hc, hphase, _⟩
      exact ⟨c, hc, hphase⟩
    · rintro ⟨c, hc, hphase⟩
      exact ⟨_, c, hc, hphase, rfl, rfl⟩
  · obtain ⟨c, hc, _, hbase, rfl⟩ := setBase_eq_ok_iff.1 h
    exact ⟨c, hc, rfl, not_derives_of_checkBase hc hbase⟩

/-- Skins may be derived from meshes, though these are on a loop, as skins are not.  Nodes may not,
since meshes are derived from them, and skins may not be derived from lamps, whose base is no
class. -/
theorem setBase_exact_looped :
    ∃ p q : Package, p = Operation.run { name := "scene" } loopedHistory ∧ p.Derives ⟨2⟩ ⟨2⟩ ∧
      setBase ⟨0⟩ (some ⟨2⟩) p = .ok () q ∧ ¬q.Derives ⟨0⟩ ⟨0⟩ ∧
      (∃ e, setBase ⟨1⟩ (some ⟨2⟩) p = .error e p) ∧
      ∃ e, setBase ⟨0⟩ (some ⟨3⟩) p = .error e p := by
  generalize hp : Operation.run { name := "scene" } loopedHistory = p
  have hlinks : (p.class? ⟨2⟩).any (·.base = some ⟨1⟩) ∧ (p.class? ⟨1⟩).any (·.base = some ⟨2⟩) ∧
      (p.class? ⟨0⟩).any (·.phase = .declared) := by
    subst hp
    decide +kernel
  have hchains : p.ancestorChain ⟨2⟩ = .ok [⟨1⟩] ∧
      p.ancestorChain ⟨3⟩ = .error (.classNotFound "class_9") := by
    subst hp
    decide +kernel
  obtain ⟨mesh, hmesh, hmeshBase⟩ := (Option.any_eq_true _ _).1 hlinks.1
  obtain ⟨node, hnode, hnodeBase⟩ := (Option.any_eq_true _ _).1 hlinks.2.1
  obtain ⟨skin, hskin, hphase⟩ := (Option.any_eq_true _ _).1 hlinks.2.2
  have hloop : p.Derives ⟨2⟩ ⟨2⟩ :=
    .head (.of_class? hmesh (of_decide_eq_true hmeshBase))
      (.single (.of_class? hnode (of_decide_eq_true hnodeBase)))
  -- What is not accepted is refused and changes nothing.
  have hrefused {id base : ClassId} (hnot : ¬∃ q, setBase id (some base) p = .ok () q) :
      ∃ e, setBase id (some base) p = .error e p := by
    cases h : setBase id (some base) p with
    | ok _ q => exact absurd ⟨q, h⟩ hnot
    | error e q =>
      obtain ⟨_, _, _, hkeeps⟩ := setBase_exact p id
      exact ⟨e, by rw [hkeeps _ _ _ h]⟩
  obtain ⟨haccepts, _, hgives, _⟩ := setBase_exact p ⟨0⟩
  obtain ⟨haccepts', _⟩ := setBase_exact p ⟨1⟩
  obtain ⟨q, hq⟩ := (haccepts ⟨2⟩).2 ⟨⟨skin, hskin, of_decide_eq_true hphase⟩, ⟨mesh, hmesh⟩,
    by decide, [⟨1⟩], hchains.1, by decide⟩
  obtain ⟨_, _, _, hnoloop⟩ := hgives _ q hq
  refine ⟨p, q, rfl, hloop, hq, hnoloop, hrefused fun hok => ?_, hrefused fun hok => ?_⟩
  · obtain ⟨_, _, _, chain, hchain, hnot⟩ := (haccepts' ⟨2⟩).1 hok
    rw [hchains.1] at hchain
    cases hchain
    exact hnot List.mem_cons_self
  · obtain ⟨_, _, _, chain, hchain, _⟩ := (haccepts ⟨3⟩).1 hok
    rw [hchains.2] at hchain
    cases hchain

end ClassBindings.Package
