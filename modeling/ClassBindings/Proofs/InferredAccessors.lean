import ClassBindings.Proofs.Step
import ClassBindings.Proofs.Survival
import ClassBindings.Proofs.Synthesis
import Mathlib.Data.List.Forall2

/-! # Inferred accessors

Where accessors are recognised by their shape, two parts of the library have to agree on names: one
asks whether a name has the beginning of a role and goes on after it, the other drops that beginning
to name the property.  The beginnings are settings, and may be empty, equal, or one the beginning of
the other, so that a name has both.

A method is marked exactly if it `IsTakenFor` a role (`Options.marked_eq_mark`,
`Options.marked_eq_self`).  Its parameters and what it returns leave no choice of the role, whatever
its name (`Options.IsTakenFor.role_unique`), and with the mark it claims the property whose name
follows the beginning of that role (`Options.IsTakenFor.observe?_mark`). -/
namespace ClassBindings

/-- The marks with that of a role added. -/
def MethodFlags.mark (flags : MethodFlags) : AccessorRole → MethodFlags
  | .getter => { flags with isGetter := true }
  | .setter => { flags with isSetter := true }

/-- The method with the mark of a role added. -/
def Method.mark (m : Method) (role : AccessorRole) : Method := { m with flags := m.flags.mark role }

/-- To add the flags that hold one mark is to add the mark. -/
theorem Method.addFlags_eq_mark (m : Method) :
    m.addFlags .getter = m.mark .getter ∧ m.addFlags .setter = m.mark .setter := by
  have hreserved : m.flags.reserved ||| 0 = m.flags.reserved :=
    Fin.ext (by rw [Fin.or_val, Fin.val_zero, Nat.or_zero, Nat.mod_eq_of_lt m.flags.reserved.isLt])
  simp [addFlags, mark, MethodFlags.union, MethodFlags.mark, MethodFlags.getter, MethodFlags.setter,
    hreserved]

namespace Options

variable {options : Options} {m : Method} {role : AccessorRole}

/-! ## Shapes -/

/-- The method takes and returns what accessors of a role do: a getter takes nothing and returns
something, a setter takes one value and returns nothing. -/
def HasShape (m : Method) : AccessorRole → Prop
  | .getter => m.params = [] ∧ ∃ type, m.returns = some type
  | .setter => (∃ param, m.params = [param]) ∧ m.returns = none

/-- The method is taken for an accessor of a role. -/
structure IsTakenFor (options : Options) (m : Method) (role : AccessorRole) : Prop where
  /-- Accessors are to be recognised. -/
  wanted : options.inferAccessors
  /-- The method has no accessor mark of its own. -/
  unmarked : ¬m.flags.isGetter ∧ ¬m.flags.isSetter
  /-- The method works on an instance that is there. -/
  onInstance : ¬m.flags.isConstructor ∧ ¬m.flags.isStatic
  /-- The name has the beginning of the role, and goes on after it. -/
  named : ∃ rest, m.name = options.rolePrefix role ++ rest ∧ rest ≠ ""
  shape : HasShape m role

/-- **The shape of a method has one role**, whichever beginnings its name has. -/
theorem HasShape.role_unique {role' : AccessorRole} (h : HasShape m role)
    (h' : HasShape m role') : role = role' := by
  cases role with
  | getter =>
    cases role' with
    | getter => rfl
    | setter =>
      obtain ⟨⟨param, hparam⟩, _⟩ := h'
      rw [h.1] at hparam
      cases hparam
  | setter =>
    cases role' with
    | getter =>
      obtain ⟨⟨param, hparam⟩, _⟩ := h
      rw [h'.1] at hparam
      cases hparam
    | setter => rfl

theorem namesRole_iff {name : String} :
    options.namesRole role name ↔ ∃ rest, name = options.rolePrefix role ++ rest ∧ rest ≠ "" := by
  simp only [namesRole, Option.any_eq_true, afterPrefix?_eq_some_iff, decide_eq_true_eq]

theorem looksLikeGetter_iff :
    options.namesRole .getter m.name && m.params.isEmpty && m.returns.isSome ↔
      options.namesRole .getter m.name ∧ HasShape m .getter := by
  simp [HasShape, Option.isSome_iff_exists, and_assoc]

theorem looksLikeSetter_iff :
    options.namesRole .setter m.name && m.params.length = 1 && m.returns.isNone ↔
      options.namesRole .setter m.name ∧ HasShape m .setter := by
  simp [HasShape, List.length_eq_one_iff, and_assoc]

/-- **A role is inferred from a name and a shape**, for a method that works on an instance. -/
theorem inferRole?_eq_some_iff : options.inferRole? m = some role ↔
    (¬m.flags.isConstructor ∧ ¬m.flags.isStatic) ∧ options.namesRole role m.name ∧
      HasShape m role := by
  rw [inferRole?, ← not_or, ← Bool.or_eq_true]
  constructor
  · intro h
    split at h
    · cases h
    · rename_i honInstance
      split at h
      · rename_i hget
        cases h
        exact ⟨honInstance, looksLikeGetter_iff.1 hget⟩
      · split at h
        · rename_i hset
          cases h
          exact ⟨honInstance, looksLikeSetter_iff.1 hset⟩
        · cases h
  · rintro ⟨honInstance, hlooks⟩
    rw [if_neg honInstance]
    cases role with
    | getter => exact if_pos (looksLikeGetter_iff.2 hlooks)
    | setter =>
      -- A getter is looked for first, but it would have another shape.
      have hnot : ¬(options.namesRole .getter m.name && m.params.isEmpty && m.returns.isSome) :=
        fun hget => nomatch (looksLikeGetter_iff.1 hget).2.role_unique hlooks.2
      rw [if_neg hnot]
      exact if_pos (looksLikeSetter_iff.2 hlooks)

/-! ## Marks -/

theorem accessorRole?_eq_none_iff :
    m.accessorRole? = none ↔ ¬m.flags.isGetter ∧ ¬m.flags.isSetter := by
  rw [Method.accessorRole?]
  cases m.flags.isGetter <;> cases m.flags.isSetter <;> simp

/-- Inference adds the mark of the role that it finds. -/
theorem inferAccessor_of_inferRole? (hnone : m.accessorRole? = none)
    (hrole : options.inferRole? m = some role) : options.inferAccessor m = m.mark role := by
  rw [inferAccessor, hnone, hrole]
  cases role with
  | getter => exact m.addFlags_eq_mark.1
  | setter => exact m.addFlags_eq_mark.2

theorem isTakenFor_iff : options.IsTakenFor m role ↔
    options.inferAccessors ∧ m.accessorRole? = none ∧ options.inferRole? m = some role := by
  rw [inferRole?_eq_some_iff, accessorRole?_eq_none_iff, namesRole_iff]
  constructor
  · rintro ⟨hwanted, hunmarked, honInstance, hnamed, hshape⟩
    exact ⟨hwanted, hunmarked, honInstance, hnamed, hshape⟩
  · rintro ⟨hwanted, hunmarked, honInstance, hnamed, hshape⟩
    exact ⟨hwanted, hunmarked, honInstance, hnamed, hshape⟩

/-- **A method taken for an accessor gets the mark of its role**, and is otherwise as before. -/
theorem marked_eq_mark (h : options.IsTakenFor m role) : options.marked m = m.mark role := by
  obtain ⟨hwanted, hnone, hrole⟩ := isTakenFor_iff.1 h
  rw [marked, if_pos hwanted, inferAccessor_of_inferRole? hnone hrole]

/-- **Any other method is as before.** -/
theorem marked_eq_self (h : ∀ role, ¬options.IsTakenFor m role) : options.marked m = m := by
  rw [marked]
  split
  · rename_i hwanted
    rw [inferAccessor]
    split
    · rfl
    · rename_i hmarked
      have hnone : m.accessorRole? = none := by simpa using hmarked
      cases hrole : options.inferRole? m with
      | none => rfl
      | some role => exact absurd (isTakenFor_iff.2 ⟨hwanted, hnone, hrole⟩) (h role)
  · rfl

/-- What the first step makes of a method that is not hidden. -/
structure Inferred (options : Options) (m m' : Method) : Prop where
  /-- A method taken for an accessor is taken for one of one role, and gets its mark.  It then
  claims, from any position, the property whose name gives its own when the beginning of the role is
  put before it. -/
  taken : ∀ role, options.IsTakenFor m role →
    (∀ role', options.IsTakenFor m role' → role' = role) ∧ m' = m.mark role ∧
      ∃ property, m.name = options.rolePrefix role ++ property ∧
        ∀ id, options.observe? id m' = some ⟨property, role, id⟩
  /-- Any other method is as before. -/
  other : (∀ role, ¬options.IsTakenFor m role) → m' = m

/-- **What is marked is claimed.**  The method claims, from any position, the property whose name
follows the beginning of the role. -/
theorem IsTakenFor.observe?_mark (h : options.IsTakenFor m role) :
    ∃ property, m.name = options.rolePrefix role ++ property ∧
      ∀ id, options.observe? id (m.mark role) = some ⟨property, role, id⟩ := by
  obtain ⟨property, hname, hne⟩ := h.named
  have hrole : (m.mark role).HasRole role := by
    cases role with
    | getter => rfl
    | setter => exact ⟨rfl, h.unmarked.1⟩
  exact ⟨property, hname, fun id => observe?_eq_some_iff.2 ⟨rfl, hrole, Or.inl hname, hne⟩⟩

theorem inferred_marked (options : Options) (m : Method) :
    options.Inferred m (options.marked m) where
  taken role h := by
    rw [marked_eq_mark h]
    exact ⟨fun role' h' => h'.shape.role_unique h.shape, rfl, h.observe?_mark⟩
  other := marked_eq_self

end Options

namespace Package

variable {p : Package} {id : ClassId} {c : NativeClass}

/-- **Inference is conservative, and what it marks makes a property.**  The first step on a declared
class leaves each method that the class does not hide as it was, unless accessors are recognised and
the method is taken for one; that method only gets the mark of its one role, and with it claims the
property whose name follows the beginning of that role in its own, whatever the two beginnings
are. -/
theorem accessors_inferred (hc : p.class? id = some c) (hphase : c.phase = .declared) :
    ∃ d, preprocess id p = .ok () (p.putClass id d) ∧
      List.Forall₂ p.options.Inferred
        (c.methods.filter fun m => !m.flags.isSkipped && !c.isSkipped m.name) d.methods := by
  refine ⟨c.preprocess p.types.resolve p.options,
    preprocess_eq_ok_iff.2 ⟨c, hc, hphase, rfl⟩, ?_⟩
  rw [NativeClass.methods_preprocess, List.forall₂_map_right_iff, List.forall₂_same]
  exact fun m _ => p.options.inferred_marked m

/-- Accessors are recognised, and any name has the beginning of a setter. -/
def bareSetterOptions : Options := { setterPrefix := "", inferAccessors := true }

/-- Reads the range of a light. -/
def rangeReader : Method :=
  { name := "GetRange", returns := some (.ofName "float"), flags := .empty }

/-- Writes the range of a light, under the name of the reader. -/
def rangeWriter : Method :=
  { name := "GetRange", params := [{ name := "range", type := .ofName "float" }], flags := .empty }

/-- Reads something that its name does not say. -/
def bareReader : Method := { name := "Get", returns := some (.ofName "float"), flags := .empty }

/-- Lights with these methods. -/
def lightHistory : List Operation :=
  [.registerModule "scene", .registerClass ⟨0⟩ "Light" "scene::Light", .addMethod ⟨0⟩ rangeReader,
    .addMethod ⟨0⟩ rangeWriter, .addMethod ⟨0⟩ bareReader]

/-- The name `GetRange` has the beginnings of both roles, and the reader and the writer of that name
make a property each.  Nothing is left of the name `Get` for a property. -/
theorem accessors_inferred_light :
    ∃ (p : Package) (c d : NativeClass) (read written : String),
      p = Operation.run { name := "scene", options := bareSetterOptions } lightHistory ∧
      p.class? ⟨0⟩ = some c ∧ c.phase = .declared ∧
      preprocess ⟨0⟩ p = .ok () (p.putClass ⟨0⟩ d) ∧
      d.methods = [rangeReader.mark .getter, rangeWriter.mark .setter, bareReader] ∧
      "GetRange" = "Get" ++ read ∧ "GetRange" = "" ++ written ∧
      p.options.observe? ⟨0⟩ (rangeReader.mark .getter) = some ⟨read, .getter, ⟨0⟩⟩ ∧
      p.options.observe? ⟨1⟩ (rangeWriter.mark .setter) = some ⟨written, .setter, ⟨1⟩⟩ := by
  generalize hp : Operation.run { name := "scene", options := bareSetterOptions } lightHistory = p
  have hoptions : p.options = bareSetterOptions := by
    subst hp
    decide +kernel
  have hlight : (p.class? ⟨0⟩).any fun c => c.phase = .declared ∧
      (c.methods.filter fun m => !m.flags.isSkipped && !c.isSkipped m.name) =
        [rangeReader, rangeWriter, bareReader] := by
    subst hp
    decide +kernel
  obtain ⟨c, hc, hsome⟩ := (Option.any_eq_true _ _).1 hlight
  obtain ⟨hphase, hmethods⟩ := of_decide_eq_true hsome
  obtain ⟨d, hrun, hinferred⟩ := accessors_inferred hc hphase
  have hreads : bareSetterOptions.IsTakenFor rangeReader .getter :=
    ⟨rfl, by decide, by decide, ⟨"Range", by decide, by decide⟩, rfl, _, rfl⟩
  have hwrites : bareSetterOptions.IsTakenFor rangeWriter .setter :=
    ⟨rfl, by decide, by decide, ⟨"GetRange", by decide, by decide⟩, ⟨_, rfl⟩, rfl⟩
  have hbare (role : AccessorRole) : ¬bareSetterOptions.IsTakenFor bareReader role := by
    intro h
    obtain ⟨rest, hname, hne⟩ := h.named
    cases role with
    | getter =>
      have hlist := congrArg String.toList hname
      rw [String.toList_append] at hlist
      exact hne (String.toList_eq_nil_iff.1 (List.self_eq_append_right.1 hlist))
    | setter =>
      obtain ⟨⟨_, hparam⟩, _⟩ := h.shape
      cases hparam
  rw [hmethods, hoptions] at hinferred
  obtain ⟨reader, _, hreader, hrest, hlist⟩ := List.forall₂_cons_left_iff.1 hinferred
  obtain ⟨writer, _, hwriter, hlast, rfl⟩ := List.forall₂_cons_left_iff.1 hrest
  obtain ⟨other, _, hother, hnil, rfl⟩ := List.forall₂_cons_left_iff.1 hlast
  cases hnil
  obtain ⟨_, rfl, read, hread, hclaims⟩ := hreader.taken _ hreads
  obtain ⟨_, rfl, written, hwritten, hclaims'⟩ := hwriter.taken _ hwrites
  rw [hother.other hbare] at hlist
  rw [← hoptions] at hclaims hclaims'
  exact ⟨p, c, d, read, written, rfl, hc, hphase, hrun, hlist, hread, hwritten, hclaims _,
    hclaims' _⟩

end Package

end ClassBindings
