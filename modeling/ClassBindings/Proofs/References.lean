import ClassBindings.Proofs.Accessors
import ClassBindings.Proofs.Coherence

/-! # Properties refer to accessors

A property holds the positions of its accessors in the list of methods.  Resolution prunes that list
twice, in its first step and in its second, and a method that stays may then have another position.
The second step builds the properties anew from the methods that are left, so a position can be a
wrong one only in between, while the class is preprocessed; accessors may be attached by hand
before, between and after, with any options.

What every edit keeps of a class is `SoundProperties`: properties have names and accessors
(`PropertyMap.Proper`), the mark that there are properties is right, and outside of that window the
slots refer to methods of their role (`PropertyMap.RefersTo`). -/
namespace ClassBindings

/-! ## Property maps -/

namespace PropertyMap

variable {properties : PropertyMap} {methods : List Method} {name : String} {role : AccessorRole}
  {id : MethodId} {m : Method}

/-- Every property has a name that is not empty, and an accessor. -/
structure Proper (properties : PropertyMap) : Prop where
  named : ∀ name accessors, properties.find? name = some accessors → name ≠ ""
  filled : ∀ name accessors, properties.find? name = some accessors →
    ∃ role, (accessors.slot role).isSome

/-- Every slot that is filled holds the position of a method of its role. -/
def RefersTo (properties : PropertyMap) (methods : List Method) : Prop :=
  ∀ name role id, properties.slot name role = some id →
    ∃ m, methods[id.index]? = some m ∧ m.accessorRole? = some role

theorem proper_empty : Proper .empty where
  named _ _ h := nomatch h
  filled _ _ h := nomatch h

theorem refersTo_empty (methods : List Method) : RefersTo .empty methods :=
  fun _ _ _ h => nomatch h

theorem Proper.attach (h : properties.Proper) (hname : name ≠ "") (role : AccessorRole)
    (id : MethodId) : (properties.attach name role id).1.Proper := by
  constructor
  · intro name' accessors hfound
    rw [find?_attach] at hfound
    split at hfound
    · rename_i hsame
      exact hsame ▸ hname
    · exact h.named name' accessors hfound
  · intro name' accessors hfound
    rw [find?_attach] at hfound
    split at hfound
    · cases hfound
      exact ⟨role, by rw [Accessors.slot_put, if_pos rfl]; rfl⟩
    · exact h.filled name' accessors hfound

theorem RefersTo.attach (h : properties.RefersTo methods) (hm : methods[id.index]? = some m)
    (hrole : m.accessorRole? = some role) (name : String) :
    (properties.attach name role id).1.RefersTo methods := by
  intro name' role' id' hslot
  rw [slot_attach] at hslot
  split at hslot
  · rename_i hsame
    cases hslot
    exact ⟨m, hm, hsame.2 ▸ hrole⟩
  · exact h name' role' id' hslot

/-- Methods added at the end move none. -/
theorem RefersTo.append {methods' : List Method} (h : properties.RefersTo methods)
    (hmethods : methods <+: methods') : properties.RefersTo methods' := by
  obtain ⟨rest, rfl⟩ := hmethods
  intro name role id hslot
  obtain ⟨m, hm, hrole⟩ := h name role id hslot
  exact ⟨m, (List.getElem?_append_left (List.getElem?_eq_some_iff.1 hm).1).trans hm, hrole⟩

theorem isEmpty_attach (properties : PropertyMap) (name : String) (role : AccessorRole)
    (id : MethodId) : (properties.attach name role id).1.isEmpty = false := by
  have hfound : (properties.attach name role id).1.find? name =
      some (((properties.find? name).getD {}).put id role) := by
    rw [find?_attach, if_pos rfl]
  rw [isEmpty, List.isEmpty_eq_false_iff]
  exact List.ne_nil_of_mem (mem_entries_iff.2 hfound)

end PropertyMap

/-! ## Synthesis -/

namespace Options

variable {options : Options} {m : Method} {name property : String} {role : AccessorRole}

theorem propertyName?_ne_empty (h : options.propertyName? role name = some property) :
    property ≠ "" := by
  simp only [propertyName?] at h
  split at h
  · cases h
  · rename_i hne
    cases h
    exact hne

/-- A method that claims a slot is an accessor of its role, and the property has a name. -/
theorem of_slot?_eq_some (h : options.slot? m = some (property, role)) :
    m.accessorRole? = some role ∧ property ≠ "" := by
  simp only [slot?, Option.bind_eq_bind, Option.bind_eq_some_iff, Option.pure_def,
    Option.some.injEq, Prod.mk.injEq] at h
  obtain ⟨role', hrole, property', hname, rfl, rfl⟩ := h
  exact ⟨hrole, propertyName?_ne_empty hname⟩

end Options

namespace Synthesis

variable (options : Options) {methods : List Method} {claims : List Observation} {o : Observation}

/-- **The claims are those of the methods**, each from its position. -/
theorem mem_observations_iff : o ∈ observations options methods ↔
    ∃ m, methods[o.method.index]? = some m ∧ options.slot? m = some (o.property, o.role) := by
  rw [observations, List.mem_filterMap]
  constructor
  · rintro ⟨claim?, hclaim, rfl⟩
    obtain ⟨i, hi, hclaim⟩ := List.mem_mapIdx.1 hclaim
    rw [Options.observe?_eq] at hclaim
    obtain ⟨slot, hslot, rfl⟩ := Option.map_eq_some_iff.1 hclaim
    exact ⟨methods[i], List.getElem?_eq_getElem hi, hslot⟩
  · rintro ⟨m, hm, hslot⟩
    obtain ⟨hi, rfl⟩ := List.getElem?_eq_some_iff.1 hm
    refine ⟨some o, List.mem_mapIdx.2 ⟨o.method.index, hi, ?_⟩, rfl⟩
    rw [Options.observe?_eq, hslot]
    rfl

theorem proper_assemble (methods : List Method) (h : ∀ o ∈ claims, o.property ≠ "") :
    (assemble methods claims).properties.Proper := by
  induction claims using List.reverseRecOn with
  | nil => exact PropertyMap.proper_empty
  | append_singleton claims o ih =>
    have hclaims := ih fun o' ho' => h o' (List.mem_append_left _ ho')
    rw [assemble_concat]
    exact hclaims.attach (h o (List.mem_append_right _ List.mem_cons_self)) o.role o.method

theorem proper_ofMethods (methods : List Method) : (ofMethods options methods).properties.Proper :=
  proper_assemble methods fun _ ho => by
    obtain ⟨_, _, hslot⟩ := (mem_observations_iff options).1 ho
    exact (Options.of_slot?_eq_some hslot).2

/-- **What is built from methods refers to them**: a slot holds a claim to it, and the claim comes
from a method of that role. -/
theorem refersTo_ofMethods (methods : List Method) :
    (ofMethods options methods).properties.RefersTo methods := by
  intro name role id hslot
  rw [ofMethods, slot_assemble] at hslot
  obtain ⟨o, ho, rfl⟩ := Option.map_eq_some_iff.1 hslot
  obtain ⟨m, hm, hclaim⟩ :=
    (mem_observations_iff options).1 (List.mem_reverse.1 (List.mem_of_find?_eq_some ho))
  have hfor : o.isFor (name, role) = true := List.find?_some ho
  have hfor : (o.property, o.role) = (name, role) := of_decide_eq_true hfor
  rw [hfor] at hclaim
  exact ⟨m, hm, (Options.of_slot?_eq_some hclaim).1⟩

end Synthesis

/-! ## Classes -/

namespace NativeClass

variable {c d : NativeClass} {accessor : MethodId} {claim : Observation} {options : Options}

/-- A claim comes from the method at the position. -/
theorem slot?_of_accessorClaim (h : c.accessorClaim options accessor = .ok claim) :
    ∃ m, c.method? accessor = some m ∧ options.slot? m = some (claim.property, claim.role) := by
  rw [accessorClaim] at h
  split at h
  · cases h
  rename_i m hm
  split at h
  · cases h
  rename_i role hrole
  split at h
  · cases h
  rename_i property hname
  cases h
  exact ⟨m, hm, by simp [Options.slot?, hrole, hname]⟩

/-- The properties of the class have names and accessors, the mark that there are any is right, and
the accessors are methods of the class unless its methods are being pruned. -/
structure SoundProperties (c : NativeClass) : Prop where
  proper : c.properties.Proper
  marked : c.hasProperties = !c.properties.isEmpty
  refers : c.phase ≠ .preprocessed → c.properties.RefersTo c.methods

namespace SoundProperties

theorem declares (h : c.SoundProperties) (hd : c.Declares d) : d.SoundProperties := by
  have hproperties : d.properties = c.properties := by rw [hd.same]
  have hmark : d.hasProperties = c.hasProperties := by rw [hd.same]
  have hphase : d.phase = c.phase := by rw [hd.same]
  constructor
  · exact hproperties ▸ h.proper
  · rw [hmark, hproperties]
    exact h.marked
  · intro hopen
    rw [hproperties]
    exact (h.refers (hphase ▸ hopen)).append hd.methods_isPrefix

/-- **Attaching is sound with any options**: the accessor is a method of the class. -/
theorem attached (h : c.SoundProperties) (hclaim : c.accessorClaim options accessor = .ok claim) :
    (c.attached accessor claim).SoundProperties := by
  obtain ⟨m, hm, hslot⟩ := slot?_of_accessorClaim hclaim
  obtain ⟨hrole, hname⟩ := Options.of_slot?_eq_some hslot
  constructor
  · exact h.proper.attach hname claim.role accessor
  · show true = !(c.properties.attach claim.property claim.role accessor).1.isEmpty
    rw [PropertyMap.isEmpty_attach]
    rfl
  · exact fun hopen => (h.refers hopen).attach hm hrole claim.property

theorem preprocess (h : c.SoundProperties) (resolve : String → Option TypeHash)
    (options : Options) : (c.preprocess resolve options).SoundProperties :=
  ⟨h.proper, h.marked, fun hopen => absurd rfl hopen⟩

theorem postprocess (h : c.SoundProperties) (hphase : c.phase = .processed) :
    c.postprocess.SoundProperties := by
  have hopen : c.phase ≠ .preprocessed := by
    rw [hphase]
    decide
  exact ⟨h.proper, rfl, fun _ => h.refers hopen⟩

end SoundProperties

/-- **Processing makes the properties sound**, whatever they were before. -/
theorem soundProperties_process (options : Options) (ancestors : List ClassId) (inHierarchy : Bool)
    (inherited : Inherited) (c : NativeClass) :
    (c.process options ancestors inHierarchy inherited).SoundProperties :=
  ⟨Synthesis.proper_ofMethods options _, rfl, fun _ => Synthesis.refersTo_ofMethods options _⟩

end NativeClass

/-! ## Packages -/

namespace Package

variable {p q : Package} {id : ClassId} {c d : NativeClass}

/-- The properties of all classes are sound. -/
def AllSound (p : Package) : Prop := ∀ id c, p.class? id = some c → c.SoundProperties

/-- **Every effect on a class keeps its properties sound.** -/
theorem kept_soundProperties : Kept fun _ => NativeClass.SoundProperties where
  register _ _ _ _ := ⟨PropertyMap.proper_empty, rfl, fun _ => PropertyMap.refersTo_empty _⟩
  declare _ _ _ _ hd hc := hc.declares hd
  rebase _ _ _ _ hc := ⟨hc.proper, hc.marked, hc.refers⟩
  attach _ _ _ _ _ _ hclaim hc := hc.attached hclaim
  advance _ _ c d hadvances hc := by
    -- The first step asks nothing of the slots any more, and the second asks nothing of the first.
    cases hadvances with
    | preprocess _ => exact hc.preprocess _ _
    | process _ _ _ => exact NativeClass.soundProperties_process ..
    | postprocess hphase => exact hc.postprocess hphase

theorem Reachable.allSound (h : p.Reachable) : p.AllSound := h.allClasses kept_soundProperties

/-- **Properties refer to accessors.**  In a reachable package the properties of a class have
distinct names, none of them empty; each has an accessor, and the class is marked as one with
properties exactly if there are any.  Unless the class is preprocessed, and its methods are about to
be pruned again, each accessor is the position of a method of the class, of the role in which the
property holds it. -/
theorem Reachable.references_valid (h : p.Reachable) (hc : p.class? id = some c) :
    c.properties.keys.Nodup ∧
    (∀ name accessors, (name, accessors) ∈ c.properties.entries →
      name ≠ "" ∧ (∃ role, (accessors.slot role).isSome) ∧
      (c.phase ≠ .preprocessed → ∀ role accessor, accessors.slot role = some accessor →
        ∃ m, c.method? accessor = some m ∧ m.accessorRole? = some role)) ∧
    (c.hasProperties ↔ c.properties.entries ≠ []) := by
  have hsound := h.allSound id c hc
  refine ⟨c.properties.keys_nodup, fun name accessors hmem => ?_, ?_⟩
  · have hfound := PropertyMap.mem_entries_iff.1 hmem
    refine ⟨hsound.proper.named _ _ hfound, hsound.proper.filled _ _ hfound,
      fun hopen role accessor hslot => hsound.refers hopen name role accessor ?_⟩
    rw [PropertyMap.slot, hfound, Option.bind_some, hslot]
  · rw [hsound.marked, PropertyMap.isEmpty]
    cases c.properties.entries <;> simp

/-- A setter is attached before the one ahead of it is pruned, and again after, by other options. -/
def setterHistory : List Operation :=
  [.attachAccessor ⟨1⟩ ⟨2⟩ {}, .resolveClass ⟨0⟩, .preprocess ⟨1⟩, .process ⟨1⟩,
    .attachAccessor ⟨1⟩ ⟨1⟩ { setterPrefix := "mo" }]

/-- The setter of a mesh was its third method and is its second now; both its properties, `move` and
`ve`, refer to where it is. -/
theorem references_valid_mesh :
    ∃ c m, (Operation.run meshPackage setterHistory).class? ⟨1⟩ = some c ∧
      c.phase = .processed ∧ c.properties.keys = ["move", "ve"] ∧ c.properties.keys.Nodup ∧
      (∀ entry ∈ c.properties.entries, entry.2.setter = some ⟨1⟩) ∧
      c.method? ⟨1⟩ = some m ∧ m.accessorRole? = some .setter := by
  have hreachable : (Operation.run meshPackage setterHistory).Reachable :=
    reachable_meshPackage.run (by decide)
  have hstate : ((Operation.run meshPackage setterHistory).class? ⟨1⟩).any fun c =>
      decide (c.phase = .processed ∧ c.properties.keys = ["move", "ve"] ∧
        ∀ entry ∈ c.properties.entries, entry.2.setter = some ⟨1⟩) := by
    decide +kernel
  obtain ⟨c, hc, hstate⟩ := (Option.any_eq_true _ _).1 hstate
  obtain ⟨hphase, hkeys, hsetters⟩ := of_decide_eq_true hstate
  obtain ⟨hnodup, hvalid, -⟩ := hreachable.references_valid hc
  have hmove : "move" ∈ c.properties.keys := hkeys ▸ List.mem_cons_self
  obtain ⟨⟨_, accessors⟩, hentry, rfl⟩ := List.mem_map.1 hmove
  obtain ⟨m, hm, hrole⟩ := (hvalid _ accessors hentry).2.2 (by rw [hphase]; decide) .setter ⟨1⟩
    (hsetters _ hentry)
  exact ⟨c, m, hc, hphase, hkeys, hnodup, hsetters, hm, hrole⟩

end Package

end ClassBindings
