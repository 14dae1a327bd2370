import ClassBindings.NativeClass.Resolution

/-! # Which methods a class exposes

Resolution takes methods from a class twice, before and after its ancestors are known, and by two
selections, one for its own overrides and one for those that it inherits.  `NativeClass.exposed`
says at once what comes of it.  A method goes if it is hidden, by a mark of its own or by a name
that the class or an ancestor hides.  Of the others, one `Survives` if the overrides that count for
its name fit nothing, or fit it first; `nearestOverrides` are the overrides that count.  Last, an
abstract class has no constructors.

Along the way methods may be marked as accessors, and that changes none of this: neither the name of
a method nor its parameters nor whether it is a constructor (`Options.marked_eq`).  The result is
`NativeClass.settled_preprocess`. -/
namespace ClassBindings

/-! ## Marks of accessors -/

namespace Options

/-- The method as resolution leaves it, with the mark that its shape implies if those are wanted. -/
def marked (options : Options) (m : Method) : Method :=
  if options.inferAccessors then options.inferAccessor m else m

/-- **All that is done to a method is to mark it**, as a getter or as a setter. -/
theorem marked_eq (options : Options) (m : Method) :
    options.marked m = m ∨ options.marked m = m.addFlags .getter ∨
      options.marked m = m.addFlags .setter := by
  rw [marked, inferAccessor]
  split
  · split
    · exact Or.inl rfl
    · split
      · exact Or.inr (Or.inl rfl)
      · exact Or.inr (Or.inr rfl)
      · exact Or.inl rfl
  · exact Or.inl rfl

variable (options : Options) (m : Method)

@[simp] theorem name_marked : (options.marked m).name = m.name := by
  rcases marked_eq options m with h | h | h <;> rw [h] <;> rfl

@[simp] theorem params_marked : (options.marked m).params = m.params := by
  rcases marked_eq options m with h | h | h <;> rw [h] <;> rfl

@[simp] theorem isConstructor_marked :
    (options.marked m).flags.isConstructor = m.flags.isConstructor := by
  rcases marked_eq options m with h | h | h <;> rw [h] <;>
    simp [Method.addFlags, MethodFlags.union, MethodFlags.getter, MethodFlags.setter]

end Options

/-! ## Overrides that count -/

namespace Override

variable {o : Override} {m : Method}

theorem isParsed_of_fits (h : o.fits m) : o.isParsed := by
  rw [fits] at h
  rw [isParsed]
  cases htypes : o.types? with
  | none => simp [htypes] at h
  | some types => rfl

theorem name_of_fits (h : o.fits m) : o.name = m.name := by
  rw [fits] at h
  cases htypes : o.types? with
  | none => simp [htypes] at h
  | some types =>
    simp [htypes] at h
    exact h.1.symm

/-- An override reads a method's name and parameters only. -/
@[simp] theorem fits_marked (o : Override) (options : Options) (m : Method) :
    o.fits (options.marked m) = o.fits m := by
  have hsignature (types : List TypeHash) :
      (options.marked m).hasSignature types = m.hasSignature types := by
    rw [Method.hasSignature, Method.hasSignature, Method.paramTypes, Method.paramTypes,
      Options.params_marked]
  rw [fits, fits, Options.name_marked, funext hsignature]

/-- Those of a list that are parsed. -/
def parsed (resolve : String → Option TypeHash) (overrides : List Override) : List Override :=
  overrides.filterMap fun o => (o.resolved resolve).toOption

theorem parseEach_fst (resolve : String → Option TypeHash) (overrides : List Override) :
    (parseEach resolve overrides).1 = parsed resolve overrides := by
  induction overrides with
  | nil => rfl
  | cons o rest ih =>
    rw [parsed] at ih
    rw [parseEach, parsed, List.filterMap_cons, ← ih]
    cases o.resolved resolve <;> rfl

theorem isParsed_of_resolved {resolve : String → Option TypeHash} {o o' : Override}
    (h : o.resolved resolve = .ok o') : o'.isParsed := by
  rw [resolved] at h
  split at h
  · cases h
    assumption
  · cases htypes : signatureTypes resolve o.signature with
    | ok types =>
      rw [htypes] at h
      cases h
      rfl
    | error token =>
      rw [htypes] at h
      cases h

theorem isParsed_of_mem_parsed {resolve : String → Option TypeHash} {overrides : List Override}
    (h : o ∈ parsed resolve overrides) : o.isParsed := by
  obtain ⟨o', _, ho'⟩ := List.mem_filterMap.1 h
  cases hresolved : o'.resolved resolve with
  | ok o'' =>
    rw [hresolved] at ho'
    cases ho'
    exact isParsed_of_resolved hresolved
  | error token =>
    rw [hresolved] at ho'
    cases ho'

/-- Those of a list that are parsed and are for this name. -/
def parsedFor (name : String) (overrides : List Override) : List Override :=
  overrides.filter fun o => o.isParsed && o.name = name

theorem parsedFor_ne_nil_iff {name : String} {overrides : List Override} :
    parsedFor name overrides ≠ [] ↔ ∃ o ∈ overrides, o.isParsed ∧ o.name = name := by
  rw [parsedFor, Ne, List.filter_eq_nil_iff]
  simp

/-- The overrides that count for a name: of these lists, nearest first, the first that has a parsed
one for it has them all. -/
def nearestOverrides (name : String) : List (List Override) → List Override
  | [] => []
  | overrides :: rest =>
    if parsedFor name overrides = [] then nearestOverrides name rest else parsedFor name overrides

end Override

open Override (parsedFor nearestOverrides)

namespace Inherited

theorem parsedFor_offered (claimed : List String) (ancestor : NativeClass) (name : String) :
    parsedFor name (offered claimed ancestor) =
      if name ∈ claimed then [] else parsedFor name ancestor.overrides := by
  rw [parsedFor, offered, List.filter_filter]
  split
  · rename_i hname
    refine List.filter_eq_nil_iff.2 fun o _ ho => ?_
    simp at ho
    exact ho.2.2 (ho.1.2 ▸ hname)
  · rename_i hname
    refine List.filter_congr fun o _ => ?_
    by_cases ho : o.name = name
    · subst ho
      simp [hname]
    · simp [ho]

theorem mem_names_offered {claimed : List String} {name : String} (hname : name ∉ claimed)
    (ancestor : NativeClass) :
    name ∈ (offered claimed ancestor).map (·.name) ↔ parsedFor name ancestor.overrides ≠ [] := by
  rw [Override.parsedFor_ne_nil_iff, List.mem_map]
  constructor
  · rintro ⟨o, ho, rfl⟩
    obtain ⟨ho, hoffered⟩ := List.mem_filter.1 ho
    exact ⟨o, ho, (Bool.and_eq_true_iff.1 hoffered).1, rfl⟩
  · rintro ⟨o, ho, hparsed, rfl⟩
    exact ⟨o, List.mem_filter.2 ⟨ho, by simp [hparsed, hname]⟩, rfl⟩

/-- **Inherited overrides of a name come from the nearest ancestor that has one**, unless the name
is claimed. -/
theorem parsedFor_overridesFrom (claimed : List String) (ancestors : List NativeClass)
    (name : String) :
    parsedFor name (overridesFrom claimed ancestors) =
      if name ∈ claimed then [] else nearestOverrides name (ancestors.map (·.overrides)) := by
  induction ancestors generalizing claimed with
  | nil => simp [overridesFrom, parsedFor, nearestOverrides]
  | cons ancestor rest ih =>
    have hsplit : parsedFor name (overridesFrom claimed (ancestor :: rest)) =
        parsedFor name (offered claimed ancestor) ++ parsedFor name
          (overridesFrom (claimed ++ (offered claimed ancestor).map (·.name)) rest) :=
      List.filter_append ..
    rw [hsplit, ih, parsedFor_offered]
    by_cases hname : name ∈ claimed
    · simp [hname]
    · -- The ancestor claims the name for itself exactly if it has a parsed override of it.
      have hmem := mem_names_offered hname ancestor
      by_cases hown : parsedFor name ancestor.overrides = []
      · have hnot : name ∉ (offered claimed ancestor).map (·.name) := fun h => hmem.1 h hown
        simp only [List.map_cons, nearestOverrides, hname, hown, List.mem_append, hnot, or_self,
          if_false, if_true, List.nil_append]
      · have hclaimed : name ∈ (offered claimed ancestor).map (·.name) := hmem.2 hown
        simp only [List.map_cons, nearestOverrides, hname, hown, List.mem_append, hclaimed,
          or_true, if_false, if_true, List.append_nil]

end Inherited

/-! ## Selection -/

namespace Selection

/-- The method at a position stays where these overrides count for its name: they fit no method of
the list, or one of them fits this one first. -/
def Survives (methods : List Method) (overrides : List Override) (i : Nat) : Prop :=
  (∀ o ∈ overrides, ∀ m ∈ methods, ¬o.fits m) ∨ ∃ o ∈ overrides, methods.findIdx? o.fits = some i

instance (methods : List Method) (overrides : List Override) (i : Nat) :
    Decidable (Survives methods overrides i) := inferInstanceAs (Decidable (_ ∨ _))

theorem survives_nil (methods : List Method) (i : Nat) : Survives methods [] i :=
  Or.inl fun _ ho => nomatch ho

section Kept
variable {methods : List Method} {i : Nat} {m : Method} (hm : methods[i]? = some m)
include hm

/-- Only overrides of its name choose a method. -/
theorem mem_chosen_iff (overrides : List Override) :
    i ∈ chosen methods overrides ↔
      ∃ o ∈ parsedFor m.name overrides, methods.findIdx? o.fits = some i := by
  rw [chosen, List.mem_filterMap]
  constructor
  · rintro ⟨o, ho, hfirst⟩
    have hfits : o.fits m := by
      obtain ⟨hi, hfits, _⟩ := List.findIdx?_eq_some_iff_getElem.1 hfirst
      rw [List.getElem?_eq_getElem hi] at hm
      cases hm
      exact hfits
    refine ⟨o, List.mem_filter.2 ⟨ho, ?_⟩, hfirst⟩
    simp [Override.isParsed_of_fits hfits, Override.name_of_fits hfits]
  · rintro ⟨o, ho, hfirst⟩
    exact ⟨o, (List.mem_filter.1 ho).1, hfirst⟩

omit hm in
theorem notMem_constrained_iff (overrides : List Override) (name : String) :
    name ∉ constrained methods overrides ↔
      ∀ o ∈ parsedFor name overrides, ∀ m ∈ methods, ¬o.fits m := by
  constructor
  · intro h o ho m hmem hfits
    obtain ⟨ho, hname⟩ := List.mem_filter.1 ho
    simp at hname
    refine h (List.mem_map.2 ⟨o, List.mem_filter.2 ⟨ho, ?_⟩, hname.2⟩)
    exact List.any_eq_true.2 ⟨m, hmem, hfits⟩
  · intro h hmem
    obtain ⟨o, ho, rfl⟩ := List.mem_map.1 hmem
    obtain ⟨ho, hany⟩ := List.mem_filter.1 ho
    obtain ⟨m, hmem, hfits⟩ := List.any_eq_true.1 hany
    have hparsed := Override.isParsed_of_fits hfits
    exact h o (List.mem_filter.2 ⟨ho, by simp [hparsed]⟩) m hmem hfits

/-- **A method is kept if it survives the overrides of its name.** -/
theorem kept_iff_survives (overrides : List Override) :
    ((chosen methods overrides).contains i ||
      !(constrained methods overrides).contains m.name) = true ↔
      Survives methods (parsedFor m.name overrides) i := by
  rw [Bool.or_eq_true, List.contains_iff_mem, mem_chosen_iff hm, Bool.not_eq_true',
    ← Bool.not_eq_true, List.contains_iff_mem, notMem_constrained_iff, or_comm]
  rfl

end Kept

/-- **A selection keeps what survives the overrides of its name.** -/
theorem keep_eq (methods : List Method) (overrides : List Override) :
    (ofOverrides methods overrides).keep = methods.mapIdx fun i m =>
      decide (Survives methods (parsedFor m.name overrides) i) := by
  refine List.mapIdx_eq_mapIdx_iff.2 fun i hi => ?_
  rw [Bool.eq_iff_iff, decide_eq_true_iff]
  exact kept_iff_survives (List.getElem?_eq_getElem hi) overrides

/-- Marks of accessors play no part in a selection. -/
theorem keep_map_marked (options : Options) (methods : List Method) (overrides : List Override) :
    (ofOverrides (methods.map options.marked) overrides).keep =
      (ofOverrides methods overrides).keep := by
  have hchosen : chosen (methods.map options.marked) overrides = chosen methods overrides := by
    simp [chosen, List.findIdx?_map, Function.comp_def]
  have hconstrained :
      constrained (methods.map options.marked) overrides = constrained methods overrides := by
    simp [constrained, Function.comp_def]
  refine List.ext_getElem? fun i => ?_
  rw [ofOverrides, ofOverrides, List.getElem?_mapIdx, List.getElem?_mapIdx, List.getElem?_map,
    hchosen, hconstrained]
  cases methods[i]? with
  | none => rfl
  | some m => simp only [Option.map_some, Options.name_marked]

theorem zipWith_mapIdx {α β γ δ : Type} (op : β → γ → δ) (f : Nat → α → β) (g : Nat → α → γ)
    (xs : List α) :
    List.zipWith op (xs.mapIdx f) (xs.mapIdx g) = xs.mapIdx fun i x => op (f i x) (g i x) := by
  refine List.ext_getElem? fun i => ?_
  rw [List.getElem?_zipWith, List.getElem?_mapIdx, List.getElem?_mapIdx, List.getElem?_mapIdx]
  cases xs[i]? <;> rfl

theorem retain_map {α β : Type} (f : α → β) (keep : List Bool) (xs : List α) :
    retain keep (xs.map f) = (retain keep xs).map f := by
  induction xs generalizing keep with
  | nil => cases keep <;> rfl
  | cons x xs ih =>
    cases keep with
    | nil => rfl
    | cons k keep =>
      rw [List.map_cons, retain, retain, ih]
      cases k <;> rfl

/-- Flags worked out for each member keep the members for which they are set. -/
theorem retain_mapIdx {α : Type} (keeps : Nat → α → Bool) (xs : List α) :
    retain (xs.mapIdx keeps) xs = (xs.zipIdx.filter fun x => keeps x.2 x.1).map (·.1) := by
  -- The induction is on the list, for any position that it may start from.
  suffices ∀ start, retain (xs.mapIdx fun i => keeps (start + i)) xs =
      ((xs.zipIdx start).filter fun x => keeps x.2 x.1).map (·.1) by
    simpa using this 0
  induction xs with
  | nil => exact fun _ => rfl
  | cons x xs ih =>
    intro start
    have hshift : (fun i => keeps (start + (i + 1))) = fun i => keeps (start + 1 + i) := by
      funext i
      rw [Nat.add_assoc, Nat.add_comm 1 i]
    rw [List.mapIdx_cons, hshift, retain, ih, List.zipIdx_cons, Nat.add_zero]
    cases hkeep : keeps start x <;> simp [hkeep]

end Selection

/-! ## Exposed methods -/

namespace NativeClass

open Selection (Survives)

/-- The methods of a declared class that neither it nor one of these ancestors hides. -/
def unhidden (ancestors : List NativeClass) (c : NativeClass) : List Method :=
  c.methods.filter fun m => !m.flags.isSkipped && !(c :: ancestors).any (·.isSkipped m.name)

/-- The overrides that count for a name in a declared class with these ancestors. -/
def countingOverrides (resolve : String → Option TypeHash) (ancestors : List NativeClass)
    (c : NativeClass) (name : String) : List Override :=
  nearestOverrides name (Override.parsed resolve c.overrides :: ancestors.map (·.overrides))

/-- The methods of a declared class that scripts get to see, if these are its ancestors. -/
def exposed (resolve : String → Option TypeHash) (ancestors : List NativeClass)
    (c : NativeClass) : List Method :=
  let visible := c.unhidden ancestors
  let surviving := visible.zipIdx.filter fun (m, i) =>
    Survives visible (c.countingOverrides resolve ancestors m.name) i
  (surviving.map (·.1)).filter fun m => !(c.isAbstract && m.flags.isConstructor)

/-- Exposed methods are declared methods, in the order of their declaration. -/
theorem exposed_sublist (resolve : String → Option TypeHash) (ancestors : List NativeClass)
    (c : NativeClass) : (c.exposed resolve ancestors).Sublist c.methods := by
  have hzip : (c.unhidden ancestors).zipIdx.map (·.1) = c.unhidden ancestors :=
    List.zipIdx_map_fst 0 _
  refine List.filter_sublist.trans ((List.filter_sublist.map _).trans ?_)
  rw [hzip]
  exact List.filter_sublist

/-- One of the two selections has no say in a name, so the two together are one. -/
theorem survives_countingOverrides (resolve : String → Option TypeHash)
    (ancestors : List NativeClass) (c : NativeClass) (methods : List Method) (name : String)
    (i : Nat) :
    Survives methods (c.countingOverrides resolve ancestors name) i ↔
      Survives methods (parsedFor name (Override.parsed resolve c.overrides)) i ∧
      Survives methods (parsedFor name
        (Inherited.overridesFrom ((Override.parsed resolve c.overrides).map (·.name))
          ancestors)) i := by
  have hclaimed : name ∈ (Override.parsed resolve c.overrides).map (·.name) ↔
      parsedFor name (Override.parsed resolve c.overrides) ≠ [] := by
    rw [Override.parsedFor_ne_nil_iff, List.mem_map]
    refine exists_congr fun o => and_congr_right fun ho => ?_
    exact ⟨fun hname => ⟨Override.isParsed_of_mem_parsed ho, hname⟩, fun h => h.2⟩
  rw [countingOverrides, nearestOverrides, Inherited.parsedFor_overridesFrom]
  by_cases hown : parsedFor name (Override.parsed resolve c.overrides) = []
  · have hnot := fun h => hclaimed.1 h hown
    rw [if_pos hown, if_neg hnot, hown]
    exact ⟨fun h => ⟨Selection.survives_nil _ _, h⟩, fun h => h.2⟩
  · rw [if_neg hown, if_pos (hclaimed.2 hown)]
    exact ⟨fun h => ⟨h, Selection.survives_nil _ _⟩, fun h => h.1⟩

theorem methods_preprocess (resolve : String → Option TypeHash) (options : Options)
    (c : NativeClass) :
    (c.preprocess resolve options).methods =
      (c.methods.filter fun m => !m.flags.isSkipped && !c.isSkipped m.name).map options.marked := by
  rw [preprocess]
  by_cases hinfer : options.inferAccessors
  · have hmarked : options.marked = options.inferAccessor := funext fun m => if_pos hinfer
    rw [hmarked]
    exact if_pos hinfer
  · have hmarked : options.marked = fun m => m := funext fun m => if_neg hinfer
    rw [hmarked, List.map_id']
    exact if_neg hinfer

/-- What the class hides and what its ancestors hide go one after the other. -/
theorem filter_methods_preprocess (resolve : String → Option TypeHash) (options : Options)
    (ancestors : List NativeClass) (c : NativeClass) :
    (c.preprocess resolve options).methods.filter
        (fun m => !(ancestors.flatMap (·.skips)).contains m.name) =
      (c.unhidden ancestors).map options.marked := by
  have hhides (name : String) : (ancestors.flatMap (·.skips)).contains name =
      ancestors.any (·.isSkipped name) := by
    rw [Bool.eq_iff_iff, List.contains_iff_mem, List.mem_flatMap, List.any_eq_true]
    simp only [isSkipped, List.contains_iff_mem]
  rw [methods_preprocess, List.filter_map, List.filter_filter, unhidden]
  refine congrArg _ (List.filter_congr fun m _ => ?_)
  simp only [Function.comp_apply, Options.name_marked, hhides, List.any_cons, Bool.not_or]
  rw [Bool.and_comm, Bool.and_assoc]

/-- An abstract class loses its constructors, marked or not. -/
theorem dropConstructors_marked (options : Options) (isAbstract : Bool) (methods : List Method) :
    (if isAbstract then (methods.map options.marked).filter (!·.flags.isConstructor)
      else methods.map options.marked) =
      (methods.filter fun m => !(isAbstract && m.flags.isConstructor)).map options.marked := by
  cases isAbstract with
  | false =>
    have hall : methods.filter (fun m => !(false && m.flags.isConstructor)) = methods :=
      List.filter_eq_self.2 fun _ _ => rfl
    rw [hall]
    rfl
  | true =>
    rw [if_pos rfl, List.filter_map]
    simp [Function.comp_def]

/-- The methods that processing leaves to a class with these ancestors. -/
def settled (ancestors : List NativeClass) (c : NativeClass) : List Method :=
  (c.settleMethods (.collect c ancestors)).methods

/-- **Resolution leaves a class its exposed methods**, marked as accessors where that is wanted. -/
theorem settled_preprocess (resolve : String → Option TypeHash) (options : Options)
    (ancestors : List NativeClass) (c : NativeClass) :
    (c.preprocess resolve options).settled ancestors =
      (c.exposed resolve ancestors).map options.marked := by
  have hoverrides : (c.preprocess resolve options).overrides =
      Override.parsed resolve c.overrides := Override.parseEach_fst resolve c.overrides
  have habstract : (c.preprocess resolve options).isAbstract = c.isAbstract := rfl
  have hkeep : List.zipWith (· && ·)
      (Selection.ofOverrides (c.unhidden ancestors) (Override.parsed resolve c.overrides)).keep
      (Selection.ofOverrides (c.unhidden ancestors) (Inherited.overridesFrom
        ((Override.parsed resolve c.overrides).map (·.name)) ancestors)).keep =
      (c.unhidden ancestors).mapIdx fun i m => decide
        (Survives (c.unhidden ancestors) (c.countingOverrides resolve ancestors m.name) i) := by
    rw [Selection.keep_eq, Selection.keep_eq, Selection.zipWith_mapIdx]
    refine List.mapIdx_eq_mapIdx_iff.2 fun i hi => ?_
    rw [← Bool.decide_and]
    exact decide_eq_decide.2 (survives_countingOverrides ..).symm
  -- Both selections work on marked methods, so the marks are moved out of them first.
  rw [settled, settleMethods, Inherited.collect, hoverrides, habstract]
  simp only
  rw [filter_methods_preprocess, Selection.keep_map_marked, Selection.keep_map_marked, hkeep,
    Selection.retain_map, Selection.retain_mapIdx, exposed]
  exact dropConstructors_marked options c.isAbstract _

end NativeClass

end ClassBindings
