import ClassBindings.Proofs.Confluence
import ClassBindings.Proofs.Exposure

/-! # Resolution is local

What becomes of a class depends on the class, on its ancestors, on the options and on what types
names lead to.  Two packages that agree on these are `Alike` as far as the class goes, whatever else
is in them.  Of its ancestors they need not agree on everything: it is enough that each is the
`Counterpart` of the other, which has come as far and hands down the same.

Packages that are alike stay alike under resolution: a pass on one of the classes in question can be
matched in the other package, and all other passes do not matter (`Alike.pass`).  So what one
package makes of the class the other can make of it too (`Alike.passes`), and by confluence it is
what the other makes of it in any case (`Reachable.resolution_local`). -/
namespace ClassBindings

/-! ## Counterparts -/

namespace NativeClass

variable {c d : NativeClass}

/-- The classes have come as far as each other, and those derived from them cannot tell them
apart. -/
structure Counterpart (c d : NativeClass) : Prop where
  phase : d.phase = c.phase
  base : d.base = c.base
  name : d.name = c.name
  skips : d.skips = c.skips
  overrides : d.overrides = c.overrides

theorem Counterpart.refl (c : NativeClass) : c.Counterpart c := ⟨rfl, rfl, rfl, rfl, rfl⟩

theorem Counterpart.standsIn (h : c.Counterpart d) : c.StandsIn d :=
  ⟨fun hphase => h.phase ▸ hphase, h.name, h.skips, h.overrides⟩

/-- Properties, and what was reported on them, do not matter to a counterpart. -/
theorem Counterpart.of_sameButProperties {c' : NativeClass} (h : c.Counterpart d)
    (hc' : c.SameButProperties c') : c'.Counterpart d := by
  rw [hc']
  exact ⟨h.phase, h.base, h.name, h.skips, h.overrides⟩

theorem Counterpart.preprocess (h : c.Counterpart d) (resolve : String → Option TypeHash)
    (options : Options) :
    (c.preprocess resolve options).Counterpart (d.preprocess resolve options) := by
  refine ⟨rfl, h.base, h.name, h.skips, ?_⟩
  show (Override.parseEach resolve d.overrides).1 = (Override.parseEach resolve c.overrides).1
  rw [h.overrides]

theorem Counterpart.postprocess (h : c.Counterpart d) : c.postprocess.Counterpart d.postprocess :=
  ⟨rfl, h.base, h.name, h.skips, h.overrides⟩

end NativeClass

namespace Package

open NativeClass (Counterpart StandsIn)

variable {p p' q q' : Package} {id a : ClassId} {chain : List ClassId} {c c' d d' e : NativeClass}

/-- What processing hands on to derived classes was there before. -/
theorem counterpart_processEntry (h : c.Counterpart d) (p q : Package) (ids : List ClassId) :
    (p.processEntry c ids).Counterpart (q.processEntry d ids) :=
  ⟨rfl, h.base, h.name, h.skips, h.overrides⟩

/-! ## Packages that are alike -/

/-- As far as the class at a position goes, which has these ancestors, the packages are alike. -/
structure Alike (id : ClassId) (chain : List ClassId) (p q : Package) : Prop where
  options : q.options = p.options
  /-- The ancestors of the class. -/
  lineage : ∃ c, p.class? id = some c ∧ p.Lineage c.base chain
  self : q.class? id = p.class? id
  /-- The class and its ancestors have counterparts. -/
  counterpart : ∀ a ∈ id :: chain, ∃ c d, p.class? a = some c ∧ q.class? a = some d ∧
    c.Counterpart d
  /-- Names lead to the same types as long as one of the classes has yet to look them up. -/
  types : ∀ a ∈ id :: chain, ∀ c, p.class? a = some c → c.phase = .declared →
    q.types.resolve = p.types.resolve

namespace Alike

/-- A package that agrees with another on the class and its ancestors is like it. -/
theorem of_class?_eq (hc : p.class? id = some c) (hlineage : p.Lineage c.base chain)
    (hoptions : q.options = p.options)
    (hresolve : ∀ name, q.types.resolve name = p.types.resolve name)
    (hclasses : ∀ a ∈ id :: chain, q.class? a = p.class? a) : Alike id chain p q where
  options := hoptions
  lineage := ⟨c, hc, hlineage⟩
  self := hclasses id List.mem_cons_self
  counterpart a ha := by
    obtain ⟨b, hb⟩ := (Lineage.base hc hlineage).class?_of_mem ha
    exact ⟨b, b, hb, (hclasses a ha).trans hb, .refl b⟩
  types _ _ _ _ _ := funext hresolve

/-! ### What the classes see -/

section Member
variable (h : Alike id chain p q) (ha : a ∈ id :: chain) (hc : p.class? a = some c)
include h ha hc

/-- The ancestors of the class and of its ancestors are all among them. -/
theorem lineage_of_mem : ∃ above, p.Lineage c.base above ∧ above ⊆ chain := by
  obtain ⟨c₀, hc₀, hlineage⟩ := h.lineage
  rcases List.mem_cons.1 ha with rfl | hmem
  · rw [hc] at hc₀
    cases hc₀
    exact ⟨chain, hlineage, List.Subset.refl chain⟩
  · obtain ⟨before, after, rfl⟩ := List.append_of_mem hmem
    obtain ⟨c', hc', hafter⟩ := hlineage.above
    rw [hc] at hc'
    cases hc'
    exact ⟨after, hafter, fun b hb => List.mem_append_right _ (List.mem_cons_of_mem _ hb)⟩

/-- Either package finds the same ancestors. -/
theorem ancestorChain_eq {above : List ClassId} (habove : p.ancestorChain a = .ok above)
    (hd : q.class? a = some d) (hcd : c.Counterpart d) :
    q.ancestorChain a = .ok above ∧ above ⊆ chain := by
  obtain ⟨ids, hlineage, hsub⟩ := h.lineage_of_mem ha hc
  have hids := (Package.ancestorChain_eq hc hlineage).symm.trans habove
  cases hids
  refine ⟨Package.ancestorChain_eq hd ?_, hsub⟩
  rw [hcd.base]
  refine hlineage.congr fun b hb cb hcb => ?_
  obtain ⟨cb', db, hcb', hdb, hb'⟩ := h.counterpart b (List.mem_cons_of_mem _ (hsub hb))
  rw [hcb] at hcb'
  cases hcb'
  exact ⟨db, hdb, hb'.base⟩

end Member

/-- Ancestors hand down the same in either package. -/
theorem forall₂_standsIn (h : Alike id chain p q) {above : List ClassId} (hsub : above ⊆ chain) :
    List.Forall₂ StandsIn (above.filterMap p.class?) (above.filterMap q.class?) := by
  induction above with
  | nil => exact .nil
  | cons a rest ih =>
    obtain ⟨ha, hrest⟩ := List.cons_subset.1 hsub
    obtain ⟨c, d, hc, hd, hcd⟩ := h.counterpart a (List.mem_cons_of_mem _ ha)
    rw [List.filterMap_cons_some hc, List.filterMap_cons_some hd]
    exact .cons hcd.standsIn (ih hrest)

/-- **A pass on one of the classes can be matched**: its counterpart can do the same, and becomes
the same where it was the same. -/
theorem advances (h : Alike id chain p q) (ha : a ∈ id :: chain) (hc : p.class? a = some c)
    (hd : q.class? a = some d) (hcd : c.Counterpart d) (hadvances : p.Advances a c c') :
    ∃ d', q.Advances a d d' ∧ c'.Counterpart d' ∧ (d = c → d' = c') := by
  cases hadvances with
  | preprocess hphase =>
    have hresolve := h.types a ha c hc hphase
    refine ⟨_, .preprocess (hcd.phase.trans hphase), ?_, ?_⟩
    · rw [hresolve, h.options]
      exact hcd.preprocess _ _
    · rintro rfl
      rw [hresolve, h.options]
  | @process above hphase hchain hancestors =>
    obtain ⟨hchain', hsub⟩ := h.ancestorChain_eq ha hc hchain hd hcd
    have hstand := h.forall₂_standsIn hsub
    have hancestors' := StandsIn.processed_of_forall₂ hstand hancestors
    refine ⟨_, .process (hcd.phase.trans hphase) hchain' hancestors',
      counterpart_processEntry hcd p q above, ?_⟩
    rintro rfl
    exact processEntry_congr h.options hstand d
  | postprocess hphase =>
    refine ⟨_, .postprocess (hcd.phase.trans hphase), hcd.postprocess, ?_⟩
    rintro rfl
    rfl

/-! ### What keeps packages alike -/

/-- Nothing but the class and its ancestors matters. -/
theorem congr_left (h : Alike id chain p q)
    (hclasses : ∀ b ∈ id :: chain, p'.class? b = p.class? b) (hoptions : p'.options = p.options)
    (htypes : ∀ b ∈ id :: chain, ∀ e, p.class? b = some e → e.phase = .declared →
      p'.types.resolve = p.types.resolve) : Alike id chain p' q where
  options := h.options.trans hoptions.symm
  lineage := by
    obtain ⟨c, hc, hlineage⟩ := h.lineage
    refine ⟨c, (hclasses id List.mem_cons_self).trans hc, hlineage.congr fun b hb e he => ?_⟩
    exact ⟨e, (hclasses b (List.mem_cons_of_mem _ hb)).trans he, rfl⟩
  self := h.self.trans (hclasses id List.mem_cons_self).symm
  counterpart b hb := by
    obtain ⟨e, f, he, hf, hef⟩ := h.counterpart b hb
    exact ⟨e, f, (hclasses b hb).trans he, hf, hef⟩
  types b hb e he hphase := by
    rw [hclasses b hb] at he
    exact (h.types b hb e he hphase).trans (htypes b hb e he hphase).symm

/-- A class that is none of them may become what it likes. -/
theorem putClass_left (h : Alike id chain p q) (ha : a ∉ id :: chain) (c' : NativeClass) :
    Alike id chain (p.putClass a c') q :=
  h.congr_left (fun _ hb => class?_putClass_of_ne (ne_of_mem_of_not_mem hb ha) p c') rfl
    fun _ _ _ _ _ => rfl

/-- **One of them may become something else, if its counterpart does too.** -/
theorem putClass (h : Alike id chain p q) (hc : p.class? a = some c) (hd : q.class? a = some d)
    (hbase : c'.base = c.base) (hphase : c'.phase ≠ .declared) (hcd : c'.Counterpart d')
    (hself : a = id → d' = c') : Alike id chain (p.putClass a c') (q.putClass a d') where
  options := h.options
  lineage := by
    obtain ⟨b, hb, hlineage⟩ := h.lineage
    have hbases := sameBases_putClass hc hbase
    obtain ⟨b', hb', hbb'⟩ := hbases.class?_eq_some hb
    refine ⟨b', hb', ?_⟩
    rw [hbb']
    exact hlineage.congr fun _ _ _ he => hbases.class?_eq_some he
  self := by
    by_cases hid : a = id
    · subst hid
      rw [class?_putClass_self hc, class?_putClass_self hd, hself rfl]
    · rw [class?_putClass_of_ne (Ne.symm hid), class?_putClass_of_ne (Ne.symm hid), h.self]
  counterpart b hb := by
    by_cases hba : b = a
    · subst hba
      exact ⟨c', d', class?_putClass_self hc c', class?_putClass_self hd d', hcd⟩
    · obtain ⟨e, f, he, hf, hef⟩ := h.counterpart b hb
      exact ⟨e, f, (class?_putClass_of_ne hba p c').trans he,
        (class?_putClass_of_ne hba q d').trans hf, hef⟩
  types b hb e he hdeclared := by
    rcases class?_putClass_eq_some hc he with ⟨_, rfl⟩ | ⟨_, he⟩
    · exact absurd hdeclared hphase
    · exact h.types b hb e he hdeclared

/-- **What one pass preserves.** -/
theorem pass (h : Alike id chain p q) (hpass : Pass p p') :
    ∃ q', Passes q q' ∧ Alike id chain p' q' := by
  cases hpass with
  | @advance a c c' hc hadvances =>
    by_cases ha : a ∈ id :: chain
    · obtain ⟨e, d, he, hd, hcd⟩ := h.counterpart a ha
      rw [hc] at he
      cases he
      obtain ⟨d', hd', hcd', hsame⟩ := h.advances ha hc hd hcd hadvances
      have hphase : c'.phase ≠ .declared := by
        cases hadvances <;> exact fun hdeclared => nomatch hdeclared
      refine ⟨_, .single (.advance hd hd'), h.putClass hc hd hadvances.base_eq hphase hcd' ?_⟩
      rintro rfl
      have hself := h.self
      rw [hc, hd] at hself
      exact hsame (Option.some.inj hself)
    · exact ⟨q, .refl, h.putClass_left ha c'⟩

/-- **What a run of passes preserves.** -/
theorem passes (h : Alike id chain p q) (hpasses : Passes p p') :
    ∃ q', Passes q q' ∧ Alike id chain p' q' := by
  induction hpasses with
  | refl => exact ⟨q, .refl, h⟩
  | tail _ hpass ih =>
    obtain ⟨q₁, hq₁, h₁⟩ := ih
    obtain ⟨q₂, hq₂, h₂⟩ := h₁.pass hpass
    exact ⟨q₂, Relation.ReflTransGen.trans hq₁ hq₂, h₂⟩

end Alike

/-! ## Resolving packages that are alike -/

/-- Resolving a coherent package as a whole is a run of passes after which each class is there and
finalized. -/
theorem Coherent.resolveAll_finalizes (h : p.Coherent) (hc : p.class? id = some c) :
    Passes p (Operation.apply p .resolveAll) ∧
      ∃ d, (Operation.apply p .resolveAll).class? id = some d ∧ d.phase = .finalized := by
  obtain ⟨report, q, hall, hpq, hresolved, _⟩ := h.resolveAll_ok
  have hq : Operation.apply p .resolveAll = q := by
    rw [Operation.apply, hall]
    rfl
  obtain ⟨d, hd, _⟩ := hpq.sameBases.class?_eq_some hc
  rw [hq]
  exact ⟨hpq, d, hd, hresolved.finalized id d hd⟩

end Package

end ClassBindings
