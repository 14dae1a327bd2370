import ClassBindings.Proofs.PropertyWrites

/-! # Accessors that lose their slots

The synthesis of properties goes through the methods of a class once and keeps books: what is in
each slot, and which accessor has lost one.  Seen from the methods, an accessor takes its slot from
the last one before it that claims the same, so what there is to report can be read off the list
without any books (`Options.replacements`).

The books are right at each point of the way: a slot holds the last claim to it so far
(`Synthesis.slot_assemble`), and the reports are those on the methods so far
(`Synthesis.diagnostics_assemble`). -/
namespace ClassBindings

/-! ## Replaced accessors -/

namespace Options

variable (options : Options)

/-- The slot that a method claims, if it is an accessor that names a property. -/
def slot? (m : Method) : Option (String × AccessorRole) := do
  let role ← m.accessorRole?
  let property ← options.propertyName? role m.name
  return (property, role)

/-- The report on a method that comes after these: it takes its slot from the last of them that
claims the same. -/
def replacement? (earlier : List Method) (m : Method) : Option Diagnostic := do
  let (property, role) ← options.slot? m
  let replaced ← earlier.reverse.find? (options.slot? · = some (property, role))
  return .duplicateAccessor property role replaced.name m.name

/-- The reports on a list of methods, in order: one for each that takes a slot from another. -/
def replacements (methods : List Method) : List Diagnostic :=
  (methods.mapIdx fun i m => options.replacement? (methods.take i) m).filterMap id

/-- One method more. -/
theorem replacements_concat (methods : List Method) (m : Method) :
    options.replacements (methods ++ [m]) =
      options.replacements methods ++ (options.replacement? methods m).toList := by
  have hall (methods : List Method) : options.replacements methods =
      (mapWithEarlier options.replacement? methods).filterMap id := rfl
  rw [hall, mapWithEarlier_concat, List.filterMap_append, ← hall]
  cases options.replacement? methods m <;> simp

theorem observe?_eq (id : MethodId) (m : Method) :
    options.observe? id m = (options.slot? m).map fun slot => ⟨slot.1, slot.2, id⟩ := by
  unfold Options.observe? slot?
  cases m.accessorRole? with
  | none => rfl
  | some role => cases hname : options.propertyName? role m.name <;> simp [hname]

end Options

/-! ## The books -/

namespace Synthesis

variable (options : Options) {methods done : List Method}

theorem observations_concat (done : List Method) (m : Method) :
    observations options (done ++ [m]) = observations options done ++
      ((options.slot? m).map fun slot => ⟨slot.1, slot.2, ⟨done.length⟩⟩).toList := by
  rw [observations, List.mapIdx_concat, List.filterMap_append, ← observations, Options.observe?_eq]
  cases options.slot? m <;> simp

/-- Claims come from methods of the list. -/
theorem lt_length_of_mem_observations {o : Observation} (h : o ∈ observations options done) :
    o.method.index < done.length := by
  induction done using List.reverseRecOn with
  | nil => cases h
  | append_singleton done m ih =>
    rw [List.length_append, List.length_singleton]
    rw [observations_concat, List.mem_append, Option.mem_toList] at h
    rcases h with h | h
    · exact Nat.lt_succ_of_lt (ih h)
    · obtain ⟨slot, _, rfl⟩ := Option.map_eq_some_iff.1 h
      exact Nat.lt_succ_self _

theorem assemble_concat (methods : List Method) (claims : List Observation) (o : Observation) :
    assemble methods (claims ++ [o]) = grant methods (assemble methods claims) o := by
  rw [assemble, assemble, List.foldl_append]
  rfl

/-- Claims that are granted are attached. -/
theorem properties_assemble (methods : List Method) (claims : List Observation) :
    (assemble methods claims).properties = (PropertyMap.attachEach claims).1 := by
  induction claims using List.reverseRecOn with
  | nil => rfl
  | append_singleton claims o ih =>
    rw [assemble_concat, PropertyMap.attachEach_concat, ← ih]
    rfl

theorem slot_assemble (methods : List Method) (claims : List Observation) (name : String)
    (role : AccessorRole) :
    (assemble methods claims).properties.slot name role =
      (claims.reverse.find? (·.isFor (name, role))).map (·.method) := by
  rw [properties_assemble]
  exact PropertyMap.slot_attachEach claims name role

/-- A claim is reported by what is in its slot. -/
theorem diagnostics_grant (methods : List Method) (s : Synthesis) (o : Observation) :
    (grant methods s o).diagnostics =
      s.diagnostics ++ (o.report? methods (s.properties.slot o.property o.role)).toList := by
  rw [← PropertyMap.attach_snd s.properties o.property o.role o.method]
  rfl

/-- The last claim to a slot is that of the last method that claims it. -/
theorem find?_observations (hinitial : done <+: methods) (name : String) (role : AccessorRole) :
    ((observations options done).reverse.find? (·.isFor (name, role))).map
        (fun o => methodName methods o.method) =
      (done.reverse.find? (options.slot? · = some (name, role))).map (·.name) := by
  induction done using List.reverseRecOn with
  | nil => rfl
  | append_singleton done m ih =>
    have ih := ih ((List.prefix_append done [m]).trans hinitial)
    have hname : methodName methods ⟨done.length⟩ = m.name := by
      obtain ⟨rest, rfl⟩ := hinitial
      simp [methodName]
    rw [observations_concat, List.reverse_append, List.reverse_append, List.reverse_singleton,
      List.singleton_append, List.find?_cons]
    cases hslot : options.slot? m with
    | none => simpa using ih
    | some slot =>
      rcases slot with ⟨name', role'⟩
      have hfor : Observation.isFor (name, role) ⟨name', role', ⟨done.length⟩⟩ =
          decide ((name', role') = (name, role)) := rfl
      rw [Option.map_some, Option.toList_some, List.reverse_singleton, List.singleton_append,
        List.find?_cons, hfor]
      by_cases hsame : (name', role') = (name, role)
      · simp only [hsame, decide_true, Option.map_some, hname]
      · simp only [hsame, decide_false, ih, Option.some.injEq]

/-- The report on the next method: its slot holds the last claim that was made to it. -/
theorem report?_of_slot (hinitial : done <+: methods) {m : Method}
    (hm : methodName methods ⟨done.length⟩ = m.name) {name : String} {role : AccessorRole}
    (hslot : options.slot? m = some (name, role)) :
    Observation.report? methods ⟨name, role, ⟨done.length⟩⟩
        ((assemble methods (observations options done)).properties.slot name role) =
      options.replacement? done m := by
  have hlast := find?_observations options hinitial name role
  rw [slot_assemble, Options.replacement?, hslot]
  cases hfind : (observations options done).reverse.find? (·.isFor (name, role)) with
  | none =>
    rw [hfind] at hlast
    have hnone := Option.map_eq_none_iff.1 hlast.symm
    simp [Observation.report?, hnone]
  | some o =>
    rw [hfind] at hlast
    obtain ⟨replaced, hreplaced, hname⟩ := Option.map_eq_some_iff.1 hlast.symm
    -- The method of an earlier claim is an earlier one, so not this one.
    have hlt := lt_length_of_mem_observations options
      (List.mem_reverse.1 (List.mem_of_find?_eq_some hfind))
    have hne : o.method ≠ ⟨done.length⟩ := fun he => Nat.lt_irrefl _ (he ▸ hlt)
    simp [Observation.report?, hne, hreplaced, ← hname, hm]

/-- **The reports are those on the methods so far.** -/
theorem diagnostics_assemble (hinitial : done <+: methods) :
    (assemble methods (observations options done)).diagnostics = options.replacements done := by
  induction done using List.reverseRecOn with
  | nil => rfl
  | append_singleton done m ih =>
    have hdone := (List.prefix_append done [m]).trans hinitial
    have hname : methodName methods ⟨done.length⟩ = m.name := by
      obtain ⟨rest, rfl⟩ := hinitial
      simp [methodName]
    rw [observations_concat, Options.replacements_concat, ← ih hdone]
    cases hslot : options.slot? m with
    | none => simp [Options.replacement?, hslot]
    | some slot =>
      rcases slot with ⟨name, role⟩
      rw [← report?_of_slot options hdone hname hslot]
      rw [Option.map_some, Option.toList_some, assemble_concat, diagnostics_grant]

/-- **Synthesis reports the accessors that lose their slots**, and nothing else. -/
theorem diagnostics_ofMethods (methods : List Method) :
    (ofMethods options methods).diagnostics = options.replacements methods :=
  diagnostics_assemble options List.prefix_rfl

end Synthesis

end ClassBindings
