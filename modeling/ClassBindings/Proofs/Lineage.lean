import ClassBindings.Package.Ancestry

/-! # Lineages

A `Lineage` is what following base links meets when it comes to an end: every link on the way leads
to a class, and the last class has no base.  Base links determine a lineage (`Lineage.unique`), so
none of its classes comes twice (`Lineage.nodup`), and the walk of `ancestorChain`, which stops at
classes already met, finds all of it (`ancestorChain_eq`).

A package is `Grounded` if every class has a lineage.  This says of its base links both that they
lead to classes and that they form no loop. -/
namespace ClassBindings.Package

/-- Following bases from `next` on meets exactly these classes, nearest first, and ends. -/
inductive Lineage (p : Package) : (next : Option ClassId) → List ClassId → Prop
  | root : Lineage p none []
  | base {id : ClassId} {c : NativeClass} {ids : List ClassId} (hc : p.class? id = some c)
      (above : Lineage p c.base ids) : Lineage p (some id) (id :: ids)

/-- Every class has a lineage. -/
def Grounded (p : Package) : Prop :=
  ∀ id c, p.class? id = some c → ∃ ids, p.Lineage c.base ids

variable {p q : Package}

namespace Lineage

theorem eq_nil {ids : List ClassId} (h : p.Lineage none ids) : ids = [] := by
  cases h
  rfl

/-- Each class of a lineage continues it by its own. -/
theorem above {next : Option ClassId} {before after : List ClassId} {id : ClassId}
    (h : p.Lineage next (before ++ id :: after)) :
    ∃ c, p.class? id = some c ∧ p.Lineage c.base after := by
  induction before generalizing next with
  | nil =>
    cases h with
    | base hc habove => exact ⟨_, hc, habove⟩
  | cons first rest ih =>
    cases h with
    | base hc habove => exact ih habove

/-- A lineage lists classes of the package. -/
theorem class?_of_mem {next : Option ClassId} {ids : List ClassId} (h : p.Lineage next ids)
    {id : ClassId} (hid : id ∈ ids) : ∃ c, p.class? id = some c := by
  obtain ⟨before, after, rfl⟩ := List.append_of_mem hid
  obtain ⟨c, hc, _⟩ := h.above
  exact ⟨c, hc⟩

/-- **Base links determine the lineage.** -/
theorem unique {next : Option ClassId} {ids ids' : List ClassId} (h : p.Lineage next ids)
    (h' : p.Lineage next ids') : ids = ids' := by
  induction h generalizing ids' with
  | root => exact h'.eq_nil.symm
  | base hc _ ih =>
    cases h' with
    | base hc' habove' =>
      rw [hc] at hc'
      cases hc'
      rw [ih habove']

/-- No class is its own ancestor: a second occurrence would continue by a shorter lineage than the
first. -/
theorem notMem {id : ClassId} {c : NativeClass} {ids : List ClassId} (hc : p.class? id = some c)
    (h : p.Lineage c.base ids) : id ∉ ids := by
  intro hid
  obtain ⟨before, after, rfl⟩ := List.append_of_mem hid
  obtain ⟨c', hc', hafter⟩ := h.above
  rw [hc] at hc'
  cases hc'
  have hlength := congrArg List.length (h.unique hafter)
  rw [List.length_append, List.length_cons] at hlength
  omega

/-- **No class comes twice in a lineage.** -/
theorem nodup {next : Option ClassId} {ids : List ClassId} (h : p.Lineage next ids) :
    ids.Nodup := by
  induction h with
  | root => exact List.nodup_nil
  | base hc habove ih => exact List.nodup_cons.2 ⟨habove.notMem hc, ih⟩

/-- A lineage reads the base links of its own classes and nothing else. -/
theorem congr {next : Option ClassId} {ids : List ClassId} (h : p.Lineage next ids)
    (hbase : ∀ id ∈ ids, ∀ c, p.class? id = some c → ∃ d, q.class? id = some d ∧ d.base = c.base) :
    q.Lineage next ids := by
  induction h with
  | root => exact .root
  | base hc _ ih =>
    obtain ⟨d, hd, hdc⟩ := hbase _ List.mem_cons_self _ hc
    refine .base hd ?_
    rw [hdc]
    exact ih fun id hid c hc => hbase id (List.mem_cons_of_mem _ hid) c hc

end Lineage

/-! ## The walk -/

theorem chainFrom_none (seen : List ClassId) : p.chainFrom seen none = .ok [] := by
  rw [chainFrom]

/-- The walk stops at a class set aside. -/
theorem chainFrom_of_mem {seen : List ClassId} {id : ClassId} (hid : id ∈ seen) :
    p.chainFrom seen (some id) = .ok [] := by
  rw [chainFrom, dif_pos hid]

/-- The walk fails where a base link leads nowhere. -/
theorem chainFrom_of_class?_none {seen : List ClassId} {id : ClassId} (hid : id ∉ seen)
    (hc : p.class? id = none) : p.chainFrom seen (some id) = .error (.classNotFound id.text) := by
  rw [chainFrom, dif_neg hid]
  split
  · rfl
  · rename_i hsome
    rw [hc] at hsome
    cases hsome

/-- The walk goes on from the base of a class met for the first time. -/
theorem chainFrom_of_class?_some {seen : List ClassId} {id : ClassId} {c : NativeClass}
    (hid : id ∉ seen) (hc : p.class? id = some c) :
    p.chainFrom seen (some id) = (p.chainFrom (id :: seen) c.base).map (id :: ·) := by
  rw [chainFrom, dif_neg hid]
  split
  · rename_i hnone
    rw [hc] at hnone
    cases hnone
  · rename_i hsome
    rw [hc] at hsome
    cases hsome
    rfl

/-- A walk that meets none of the classes set aside goes all the way. -/
theorem chainFrom_eq {next : Option ClassId} {ids : List ClassId} (h : p.Lineage next ids)
    {seen : List ClassId} (hseen : ∀ id ∈ ids, id ∉ seen) : p.chainFrom seen next = .ok ids := by
  induction h generalizing seen with
  | root => exact chainFrom_none seen
  | @base id c ids hc habove ih =>
    have hids : ∀ a ∈ ids, a ∉ id :: seen := by
      intro a ha hmem
      rcases List.mem_cons.1 hmem with rfl | hmem
      · exact habove.notMem hc ha
      · exact hseen a (List.mem_cons_of_mem _ ha) hmem
    -- The class is now set aside itself, and its lineage does not come back to it.
    rw [chainFrom_of_class?_some (hseen id List.mem_cons_self) hc, ih hids]
    rfl

/-- **The ancestors of a class are its lineage.** -/
theorem ancestorChain_eq {id : ClassId} {c : NativeClass} {ids : List ClassId}
    (hc : p.class? id = some c) (h : p.Lineage c.base ids) : p.ancestorChain id = .ok ids := by
  have hseen : ∀ a ∈ ids, a ∉ [id] := by
    intro a ha hmem
    rw [List.mem_singleton] at hmem
    subst hmem
    exact h.notMem hc ha
  rw [ancestorChain, getClass_of_class? hc]
  exact chainFrom_eq h hseen

/-- Only classes have ancestors. -/
theorem class?_of_ancestorChain {id : ClassId} {ids : List ClassId}
    (h : p.ancestorChain id = .ok ids) : ∃ c, p.class? id = some c := by
  cases hc : p.class? id with
  | none =>
    rw [ancestorChain, getClass_of_none hc] at h
    cases h
  | some c => exact ⟨c, rfl⟩

theorem Grounded.ancestorChain_ok (h : p.Grounded) {id : ClassId} {c : NativeClass}
    (hc : p.class? id = some c) : ∃ ids, p.ancestorChain id = .ok ids ∧ p.Lineage c.base ids := by
  obtain ⟨ids, hids⟩ := h id c hc
  exact ⟨ids, ancestorChain_eq hc hids, hids⟩

/-- In a grounded package the walk yields the lineage. -/
theorem Grounded.lineage_of_ancestorChain (h : p.Grounded) {id : ClassId} {c : NativeClass}
    (hc : p.class? id = some c) {ids : List ClassId} (hids : p.ancestorChain id = .ok ids) :
    p.Lineage c.base ids := by
  obtain ⟨ids', hids', hlineage⟩ := h.ancestorChain_ok hc
  rw [hids] at hids'
  cases hids'
  exact hlineage

/-! ## What the walk reads -/

/-- Both packages have classes at the same positions, with the same bases. -/
def SameBases (p q : Package) : Prop :=
  ∀ id, (q.class? id).map (·.base) = (p.class? id).map (·.base)

theorem SameBases.symm (h : p.SameBases q) : q.SameBases p := fun id => (h id).symm

theorem SameBases.trans {r : Package} (h : p.SameBases q) (h' : q.SameBases r) : p.SameBases r :=
  fun id => (h' id).trans (h id)

theorem SameBases.class?_eq_none (h : p.SameBases q) {id : ClassId} (hid : p.class? id = none) :
    q.class? id = none := by
  have hmap := h id
  rw [hid] at hmap
  exact Option.map_eq_none_iff.1 hmap

theorem SameBases.class?_eq_some (h : p.SameBases q) {id : ClassId} {c : NativeClass}
    (hid : p.class? id = some c) : ∃ d, q.class? id = some d ∧ d.base = c.base := by
  have hmap := h id
  rw [hid] at hmap
  exact Option.map_eq_some_iff.1 hmap

/-- A walk reads base links only. -/
theorem chainFrom_congr (h : p.SameBases q) (seen : List ClassId) (next : Option ClassId) :
    q.chainFrom seen next = p.chainFrom seen next := by
  induction seen, next using chainFrom.induct p with
  | case1 seen => rw [chainFrom_none, chainFrom_none]
  | case2 seen id hid => rw [chainFrom_of_mem hid, chainFrom_of_mem hid]
  | case3 seen id hid hc =>
    rw [chainFrom_of_class?_none hid hc, chainFrom_of_class?_none hid (h.class?_eq_none hc)]
  | case4 seen id hid c hc ih =>
    obtain ⟨d, hd, hdc⟩ := h.class?_eq_some hc
    rw [chainFrom_of_class?_some hid hc, chainFrom_of_class?_some hid hd, hdc, ih]

/-- **The ancestors of a class depend on base links only.** -/
theorem ancestorChain_congr (h : p.SameBases q) (id : ClassId) :
    q.ancestorChain id = p.ancestorChain id := by
  rw [ancestorChain, ancestorChain]
  cases hc : p.class? id with
  | none =>
    rw [getClass_of_none hc, getClass_of_none (h.class?_eq_none hc)]
    rfl
  | some c =>
    obtain ⟨d, hd, hdc⟩ := h.class?_eq_some hc
    rw [getClass_of_class? hc, getClass_of_class? hd]
    show q.chainFrom [id] d.base = p.chainFrom [id] c.base
    rw [hdc]
    exact chainFrom_congr h [id] c.base

end ClassBindings.Package
