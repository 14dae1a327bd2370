import ClassBindings.Proofs.Attachment

/-! # What synthesis makes of a class

Synthesis goes through observations one at a time, and writes to a map as it goes.  What it comes to
can be said at once of the list.

An observation is taken if the method has a role (`Method.HasRole`) and something is left of its
name, which gives the property (`Options.Leaves`, `Options.observe?_eq_some_iff`).  The claims taken
then settle the rest.  The properties are their names, each once, in the order of the first claim
(`Synthesis.keys_assemble`); a slot has the method of the last claim to it
(`Synthesis.lastMethod?`); and a claim is reported if the last claim before it to its slot was
another method's (`Synthesis.conflict?`, `Synthesis.diagnostics_eq_conflicts`).  Positions may be
repeated or lie beyond the list of methods: they are only ever compared, and a method that is not
there has the empty name. -/
namespace ClassBindings

/-! ## Claims -/

/-- What the marks of a method make it of a property.  A method that reads does not count as one
that writes. -/
def Method.HasRole (m : Method) : AccessorRole → Prop
  | .getter => m.flags.isGetter
  | .setter => m.flags.isSetter ∧ ¬m.flags.isGetter

theorem Method.accessorRole?_eq_some_iff {m : Method} {role : AccessorRole} :
    m.accessorRole? = some role ↔ m.HasRole role := by
  unfold Method.accessorRole? Method.HasRole
  cases m.flags.isGetter <;> cases m.flags.isSetter <;> cases role <;> decide

namespace Options

variable {options : Options} {role : AccessorRole} {name rest : String}

/-- What is left of a name without the beginning of a role: all of it where the name does not begin
so. -/
def Leaves (options : Options) (role : AccessorRole) (name rest : String) : Prop :=
  name = options.rolePrefix role ++ rest ∨
    (∀ tail, name ≠ options.rolePrefix role ++ tail) ∧ rest = name

theorem afterPrefix?_eq_some_iff :
    options.afterPrefix? role name = some rest ↔ name = options.rolePrefix role ++ rest := by
  rw [afterPrefix?, Option.map_eq_some_iff, ← String.toList_inj, String.toList_append]
  constructor
  · rintro ⟨cs, hcs, rfl⟩
    rw [String.toList_ofList]
    exact Text.stripStart?_eq_some_iff.1 hcs
  · intro h
    exact ⟨rest.toList, Text.stripStart?_eq_some_iff.2 h, String.ofList_toList⟩

theorem afterPrefix?_getD_iff :
    (options.afterPrefix? role name).getD name = rest ↔ options.Leaves role name rest := by
  cases h : options.afterPrefix? role name with
  | none =>
    have hnone : ∀ tail, name ≠ options.rolePrefix role ++ tail := fun tail htail => by
      rw [afterPrefix?_eq_some_iff.2 htail] at h
      cases h
    rw [Option.getD_none, Leaves, or_iff_right (hnone rest), and_iff_right hnone, eq_comm]
  | some found =>
    have hfound := afterPrefix?_eq_some_iff.1 h
    have hbegins : ¬∀ tail, name ≠ options.rolePrefix role ++ tail := fun hnone =>
      hnone found hfound
    rw [Option.getD_some, Leaves, or_iff_left fun hor => hbegins hor.1, ← afterPrefix?_eq_some_iff,
      h, Option.some.injEq]

theorem propertyName?_eq_some_iff :
    options.propertyName? role name = some rest ↔ options.Leaves role name rest ∧ rest ≠ "" := by
  simp only [propertyName?]
  rw [← afterPrefix?_getD_iff]
  split
  · rename_i hempty
    rw [hempty]
    simp [eq_comm]
  · rename_i hnonempty
    rw [Option.some.injEq]
    exact ⟨fun h => ⟨h, h ▸ hnonempty⟩, And.left⟩

/-- **A claim is taken of a method with a role and a name that leaves something.** -/
theorem observe?_eq_some_iff {id : MethodId} {m : Method} {claim : Observation} :
    options.observe? id m = some claim ↔ claim.method = id ∧ m.HasRole claim.role ∧
      options.Leaves claim.role m.name claim.property ∧ claim.property ≠ "" := by
  rcases claim with ⟨property, role, method⟩
  unfold Options.observe?
  simp only [Option.bind_eq_bind, Option.bind_eq_some_iff, Option.pure_def, Option.some.injEq,
    Method.accessorRole?_eq_some_iff, propertyName?_eq_some_iff, Observation.mk.injEq]
  constructor
  · rintro ⟨_, hrole, _, hname, rfl, rfl, rfl⟩
    exact ⟨rfl, hrole, hname⟩
  · rintro ⟨rfl, hrole, hname⟩
    exact ⟨role, hrole, property, hname, rfl, rfl, rfl⟩

end Options

/-! ## The result -/

namespace Synthesis

/-- The report on a claim that comes after these: the last of them to its slot is another
method's. -/
def conflict? (methods : List Method) (earlier : List Observation) (o : Observation) :
    Option Diagnostic :=
  ((lastMethod? earlier o.property o.role).filter (· ≠ o.method)).map fun replaced =>
    .duplicateAccessor o.property o.role (methodName methods replaced) (methodName methods o.method)

/-- **Properties are listed by their first claims.** -/
theorem keys_assemble (methods : List Method) (claims : List Observation) :
    (assemble methods claims).properties.keys = (claims.map (·.property)).eraseDups := by
  rw [properties_assemble, PropertyMap.keys_attachEach]

/-- The report that a claim is granted with is read off the claims before it. -/
theorem report?_eq_conflict? (methods : List Method) (claims : List Observation) (o : Observation) :
    o.report? methods ((assemble methods claims).properties.slot o.property o.role) =
      conflict? methods claims o := by
  rw [slot_assemble, conflict?, lastMethod?]
  cases (claims.reverse.find? (·.isFor (o.property, o.role))).map (·.method) with
  | none => rfl
  | some replaced =>
    by_cases h : replaced = o.method <;> simp [Observation.report?, Option.filter_some, h]

/-- **Claims are reported by the last before them.** -/
theorem diagnostics_eq_conflicts (methods : List Method) (claims : List Observation) :
    (assemble methods claims).diagnostics =
      (mapWithEarlier (conflict? methods) claims).filterMap id := by
  induction claims using List.reverseRecOn with
  | nil => rfl
  | append_singleton claims o ih =>
    rw [assemble_concat, diagnostics_grant, report?_eq_conflict?, ih, mapWithEarlier_concat,
      List.filterMap_append]
    cases conflict? methods claims o <;> rfl

/-- **Synthesis is what the claims say.**  Let methods be observed, each under some position.  A
claim is taken of a method that has a role and whose name leaves something when the beginning of
that role is dropped.  Of the claims taken there is one property for each name, in the order of
first claims, and each slot has the method of the last claim to it, if there is one.  Reported, in
the order of the claims, are those whose slot was last claimed by another method; the names in a
report are those of the two methods in the list, or empty. -/
theorem assemble_observed (options : Options) (observed : List (MethodId × Method))
    (methods : List Method) :
    let claims := options.observeEach observed
    let result := assemble methods claims
    (∀ id m claim, options.observe? id m = some claim ↔ claim.method = id ∧
      m.HasRole claim.role ∧ options.Leaves claim.role m.name claim.property ∧
      claim.property ≠ "") ∧
    result.properties.entries = (claims.map (·.property)).eraseDups.map (fun name =>
      (name, ⟨lastMethod? claims name .getter, lastMethod? claims name .setter⟩)) ∧
    (∀ name role, result.properties.slot name role = lastMethod? claims name role) ∧
    result.diagnostics = (mapWithEarlier (conflict? methods) claims).filterMap id := by
  intro claims result
  have hslots (name : String) (role : AccessorRole) :
      result.properties.slot name role = lastMethod? claims name role :=
    slot_assemble methods claims name role
  refine ⟨fun _ _ _ => Options.observe?_eq_some_iff, ?_, hslots,
    diagnostics_eq_conflicts methods claims⟩
  simp only [PropertyMap.entries_eq, hslots, result, keys_assemble]

/-- A getter observed under a position that the list does not have loses its slot to one that it
has. -/
example :
    let X := Method.getter "GetX" (.ofName "int")
    (assemble [X] (Options.observeEach {} [(⟨7⟩, X), (⟨0⟩, X), (⟨0⟩, X)])).diagnostics =
      [.duplicateAccessor "X" .getter "" "GetX"] := by decide +kernel

end Synthesis

end ClassBindings
