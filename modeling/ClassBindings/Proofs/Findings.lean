import ClassBindings.Proofs.Accessors
import ClassBindings.Proofs.Survival
import Mathlib.Data.List.Basic

/-! # What there is to report of a class

Resolution reports on a class as it goes: on overrides that it drops, on overrides that fit nothing
or too much, on accessors that lose their slots and on a missing constructor.  It also takes back
what was reported on accessors before it built the properties.  `NativeClass.findings` says at once
what comes of it, from the declaration, the ancestors and the methods that are left at the end.

Each part is first read off what it is about: the dropped overrides off the list of overrides
(`Override.parseEach_snd`), the inherited ones off the classes above (`Inherited.overridesFrom_eq`),
the fits off the methods that nothing hides.  Only the last step puts them together
(`NativeClass.diagnostics_resolved`): no part but that on accessors speaks of accessors, so none of
the others is taken back. -/
namespace ClassBindings

namespace Override

variable {resolve : String → Option TypeHash}

/-! ## Dropped overrides -/

/-- The report on an override that is dropped; it names the first of its types without a meaning. -/
def drop? (resolve : String → Option TypeHash) (o : Override) : Option Diagnostic :=
  if o.isParsed then none
  else (o.signature.find? fun token => (resolve (TypeName.normalize token)).isNone).map
    (.unresolvedOverrideType o.name)

/-- Types are read up to the first without a meaning. -/
theorem signatureTypes_cases (resolve : String → Option TypeHash) (tokens : List String) :
    (∃ types, signatureTypes resolve tokens = .ok types ∧
      tokens.find? (fun token => (resolve (TypeName.normalize token)).isNone) = none) ∨
    ∃ token, signatureTypes resolve tokens = .error token ∧
      tokens.find? (fun token => (resolve (TypeName.normalize token)).isNone) = some token := by
  induction tokens with
  | nil => exact Or.inl ⟨[], rfl, rfl⟩
  | cons token rest ih =>
    rw [signatureTypes, List.find?_cons]
    cases hresolve : resolve (TypeName.normalize token) with
    | none => exact Or.inr ⟨token, rfl, rfl⟩
    | some hash =>
      rcases ih with ⟨types, hok, hnone⟩ | ⟨first, herror, hfirst⟩
      · rw [hok]
        exact Or.inl ⟨hash :: types, rfl, hnone⟩
      · rw [herror]
        exact Or.inr ⟨first, rfl, hfirst⟩

/-- **An override is parsed, or dropped and reported.** -/
theorem resolved_cases (resolve : String → Option TypeHash) (o : Override) :
    (∃ o', o.resolved resolve = .ok o' ∧ o.drop? resolve = none) ∨
    ∃ token, o.resolved resolve = .error token ∧
      o.drop? resolve = some (.unresolvedOverrideType o.name token) := by
  rw [resolved, drop?]
  by_cases hparsed : o.isParsed
  · rw [if_pos hparsed, if_pos hparsed]
    exact Or.inl ⟨o, rfl, rfl⟩
  · rw [if_neg hparsed, if_neg hparsed]
    rcases signatureTypes_cases resolve o.signature with
      ⟨types, hok, hnone⟩ | ⟨token, herror, hfirst⟩
    · rw [hok, hnone]
      exact Or.inl ⟨_, rfl, rfl⟩
    · rw [herror, hfirst]
      exact Or.inr ⟨token, rfl, rfl⟩

theorem parseEach_snd (resolve : String → Option TypeHash) (overrides : List Override) :
    (parseEach resolve overrides).2 = overrides.filterMap (drop? resolve) := by
  induction overrides with
  | nil => rfl
  | cons o rest ih =>
    rw [parseEach, List.filterMap_cons, ← ih]
    rcases resolved_cases resolve o with ⟨o', hok, hnone⟩ | ⟨token, herror, hdrop⟩
    · rw [hok, hnone]
    · rw [herror, hdrop]

/-! ## Inherited overrides -/

/-- The overrides that ancestors, nearest first, hand down to a class with these of its own: those
parsed, for names that neither the class nor a nearer ancestor has a parsed one for. -/
def handedDown (own : List Override) (ancestors : List NativeClass) : List Override :=
  (ancestors.mapIdx fun i ancestor => ancestor.overrides.filter fun o =>
    o.isParsed && parsedFor o.name (own ++ (ancestors.take i).flatMap (·.overrides)) = []).flatten

theorem handedDown_cons (own : List Override) (ancestor : NativeClass) (rest : List NativeClass) :
    handedDown own (ancestor :: rest) =
      (ancestor.overrides.filter fun o => o.isParsed && parsedFor o.name own = []) ++
        handedDown (own ++ ancestor.overrides) rest := by
  simp [handedDown, List.mapIdx_cons]

theorem isParsed_of_mem_handedDown {own : List Override} {ancestors : List NativeClass}
    {o : Override} (h : o ∈ handedDown own ancestors) : o.isParsed := by
  obtain ⟨os, hos, ho⟩ := List.mem_flatten.1 h
  obtain ⟨i, hi, rfl⟩ := List.mem_mapIdx.1 hos
  exact (Bool.and_eq_true_iff.1 (List.mem_filter.1 ho).2).1

end Override

open Override (parsedFor handedDown)

namespace Inherited

/-- **What is collected from ancestors is what they hand down**, where a name is claimed if there is
a parsed override for it. -/
theorem overridesFrom_eq {claimed : List String} {own : List Override}
    (h : ∀ name, name ∈ claimed ↔ parsedFor name own ≠ []) (ancestors : List NativeClass) :
    overridesFrom claimed ancestors = handedDown own ancestors := by
  induction ancestors generalizing claimed own with
  | nil => rfl
  | cons ancestor rest ih =>
    have hoffered : offered claimed ancestor =
        ancestor.overrides.filter fun o => o.isParsed && parsedFor o.name own = [] := by
      refine List.filter_congr fun o _ => ?_
      by_cases hname : o.name ∈ claimed
      · simp [hname, (h o.name).1 hname]
      · simp [hname, not_not.1 fun hown => hname ((h o.name).2 hown)]
    -- What the ancestor offers claims its names for itself, as its parsed overrides do.
    have hclaimed (name : String) : name ∈ claimed ++ (offered claimed ancestor).map (·.name) ↔
        parsedFor name (own ++ ancestor.overrides) ≠ [] := by
      have hsplit : parsedFor name (own ++ ancestor.overrides) =
          parsedFor name own ++ parsedFor name ancestor.overrides := List.filter_append ..
      rw [List.mem_append, hsplit, Ne, List.append_eq_nil_iff, not_and_or]
      by_cases hname : name ∈ claimed
      · exact iff_of_true (Or.inl hname) (Or.inl ((h name).1 hname))
      · exact or_congr (h name) (mem_names_offered hname ancestor)
    rw [overridesFrom, ih hclaimed, Override.handedDown_cons, hoffered]

end Inherited

/-! ## Overrides that do not fit one method -/

namespace Selection

/-- The report on an inherited override; it need not fit any method, so it has to fit several. -/
def ambiguity? (methods : List Method) (o : Override) : Option Diagnostic :=
  if 1 < methods.countP o.fits then
    some (.ambiguousOverride o.name o.signatureText (methods.countP o.fits))
  else none

theorem filter_report? (methods : List Method) (overrides : List Override) :
    (overrides.filterMap (report? methods)).filter (!·.isUnmatchedOverride) =
      overrides.filterMap (ambiguity? methods) := by
  rw [List.filter_filterMap]
  refine List.filterMap_congr fun o _ => ?_
  rw [report?, ambiguity?]
  cases methods.countP o.fits with
  | zero => rfl
  | succ n =>
    cases n with
    | zero => rfl
    | succ n => simp [Option.filter, Diagnostic.isUnmatchedOverride]

/-- Marks of accessors play no part in a report. -/
theorem report?_map_marked (options : Options) (methods : List Method) (o : Override) :
    report? (methods.map options.marked) o = report? methods o := by
  have hfits : o.fits ∘ options.marked = o.fits := funext fun m => Override.fits_marked o options m
  rw [report?, report?, List.countP_map, hfits]

/-- Parsed overrides are all reported on. -/
theorem diagnostics_ofOverrides (options : Options) (methods : List Method)
    {overrides : List Override} (h : ∀ o ∈ overrides, o.isParsed) :
    (ofOverrides (methods.map options.marked) overrides).diagnostics =
      overrides.filterMap (report? methods) := by
  rw [ofOverrides, List.filter_eq_self.2 h, funext (report?_map_marked options methods)]

theorem isDuplicateAccessor_of_report? {methods : List Method} {o : Override} {d : Diagnostic}
    (h : report? methods o = some d) : d.isDuplicateAccessor = false := by
  rw [report?] at h
  split at h <;> cases h <;> rfl

theorem isDuplicateAccessor_of_ambiguity? {methods : List Method} {o : Override} {d : Diagnostic}
    (h : ambiguity? methods o = some d) : d.isDuplicateAccessor = false := by
  rw [ambiguity?] at h
  split at h <;> cases h
  rfl

end Selection

theorem Override.isDuplicateAccessor_of_drop? {resolve : String → Option TypeHash} {o : Override}
    {d : Diagnostic} (h : o.drop? resolve = some d) : d.isDuplicateAccessor = false := by
  rw [drop?] at h
  split at h
  · cases h
  · obtain ⟨token, _, rfl⟩ := Option.map_eq_some_iff.1 h
    rfl

/-! ## All findings -/

namespace NativeClass

/-- What there is to report of a declared class, if these are its ancestors and these the methods
that it is left with: first its overrides that are dropped, then those of its own that do not fit
just one of the methods that nothing hides, then the inherited ones that fit several of these, then
the accessors it is left with that take a slot from another, and last a missing constructor. -/
def findings (resolve : String → Option TypeHash) (options : Options)
    (ancestors : List NativeClass) (methods : List Method) (c : NativeClass) : List Diagnostic :=
  let visible := c.unhidden ancestors
  let own := Override.parsed resolve c.overrides
  c.overrides.filterMap (Override.drop? resolve) ++
    own.filterMap (Selection.report? visible) ++
    (handedDown own ancestors).filterMap (Selection.ambiguity? visible) ++
    options.replacements methods ++
    if c.isAbstract || c.isNumberArray || methods.any (·.flags.isConstructor) then []
    else [.noUsableConstructor c.name]

/-- All reports so far are on accessors. -/
def ReportsAccessorsOnly (c : NativeClass) : Prop :=
  ∀ d ∈ c.diagnostics, d.isDuplicateAccessor

/-- Reports that are not on accessors are not taken back. -/
theorem filter_filterMap_of_not {α : Type} {report : α → Option Diagnostic}
    (h : ∀ a d, report a = some d → d.isDuplicateAccessor = false) (as : List α) :
    (as.filterMap report).filter (!·.isDuplicateAccessor) = as.filterMap report := by
  refine List.filter_eq_self.2 fun d hd => ?_
  obtain ⟨a, _, ha⟩ := List.mem_filterMap.1 hd
  rw [h a d ha]
  rfl

/-- What settling the methods of a tidied class has to report, besides what was reported before. -/
theorem diagnostics_settleMethods_preprocess (resolve : String → Option TypeHash)
    (options : Options) (ancestors : List NativeClass) (c : NativeClass) :
    ((c.preprocess resolve options).settleMethods
        (.collect (c.preprocess resolve options) ancestors)).diagnostics =
      c.diagnostics ++ c.overrides.filterMap (Override.drop? resolve) ++
        (Override.parsed resolve c.overrides).filterMap
          (Selection.report? (c.unhidden ancestors)) ++
        (handedDown (Override.parsed resolve c.overrides) ancestors).filterMap
          (Selection.ambiguity? (c.unhidden ancestors)) := by
  have hoverrides : (c.preprocess resolve options).overrides =
      Override.parsed resolve c.overrides := Override.parseEach_fst resolve c.overrides
  have hdropped : (c.preprocess resolve options).diagnostics =
      c.diagnostics ++ c.overrides.filterMap (Override.drop? resolve) :=
    congrArg (c.diagnostics ++ ·) (Override.parseEach_snd resolve c.overrides)
  have hclaimed (name : String) : name ∈ (Override.parsed resolve c.overrides).map (·.name) ↔
      parsedFor name (Override.parsed resolve c.overrides) ≠ [] := by
    rw [Override.parsedFor_ne_nil_iff, List.mem_map]
    refine exists_congr fun o => and_congr_right fun ho => ?_
    exact ⟨fun hname => ⟨Override.isParsed_of_mem_parsed ho, hname⟩, fun h => h.2⟩
  rw [settleMethods, Inherited.collect, hoverrides, hdropped]
  simp only
  rw [filter_methods_preprocess, Inherited.overridesFrom_eq hclaimed,
    Selection.diagnostics_ofOverrides options _ fun o => Override.isParsed_of_mem_parsed,
    Selection.diagnostics_ofOverrides options _ fun o => Override.isParsed_of_mem_handedDown,
    Selection.filter_report?]

/-- What processing leaves of the reports: those on accessors are made anew. -/
theorem diagnostics_process (options : Options) (chain : List ClassId) (inObjectHierarchy : Bool)
    (inherited : Inherited) (c : NativeClass) :
    (c.process options chain inObjectHierarchy inherited).diagnostics =
      (c.settleMethods inherited).diagnostics.filter (!·.isDuplicateAccessor) ++
        options.replacements (c.process options chain inObjectHierarchy inherited).methods :=
  congrArg (_ ++ ·) (Synthesis.diagnostics_ofMethods options _)

/-- The last step adds the report on a missing constructor. -/
theorem diagnostics_postprocess (c : NativeClass) :
    c.postprocess.diagnostics = c.diagnostics ++
      if c.isAbstract || c.isNumberArray || c.methods.any (·.flags.isConstructor) then []
      else [.noUsableConstructor c.name] := by
  have hlacks : c.lacksConstructor =
      !(c.isAbstract || c.isNumberArray || c.methods.any (·.flags.isConstructor)) := by
    have hnone : (c.methods.filter (·.flags.isConstructor)).head?.isNone =
        !c.methods.any (·.flags.isConstructor) := by
      rw [List.head?_filter, ← List.isSome_find?, Option.not_isSome]
    rw [lacksConstructor, constructor?, constructors]
    cases habstract : c.isAbstract with
    | true => rfl
    | false =>
      rw [if_neg Bool.false_ne_true, hnone, Bool.false_or, Bool.not_or]
      rfl
  rw [postprocess, hlacks]
  cases c.isAbstract || c.isNumberArray || c.methods.any (·.flags.isConstructor) <;> rfl

/-- **Resolution reports the findings of a declaration**, and nothing else. -/
theorem diagnostics_resolved {resolve : String → Option TypeHash} {options : Options}
    {ancestors : List NativeClass} {chain : List ClassId} {inObjectHierarchy : Bool}
    {c d : NativeClass} (hclean : c.ReportsAccessorsOnly)
    (hd : d = (c.preprocess resolve options).process options chain inObjectHierarchy
      (.collect (c.preprocess resolve options) ancestors)) :
    d.postprocess.diagnostics = c.findings resolve options ancestors d.methods := by
  have habstract : d.isAbstract = c.isAbstract := by rw [hd]; rfl
  have harray : d.isNumberArray = c.isNumberArray := by rw [hd]; rfl
  have hname : d.name = c.name := by rw [hd]; rfl
  have hmethods : d.diagnostics = (c.overrides.filterMap (Override.drop? resolve) ++
      (Override.parsed resolve c.overrides).filterMap (Selection.report? (c.unhidden ancestors)) ++
      (handedDown (Override.parsed resolve c.overrides) ancestors).filterMap
        (Selection.ambiguity? (c.unhidden ancestors))) ++ options.replacements d.methods := by
    have hnone : c.diagnostics.filter (!·.isDuplicateAccessor) = [] :=
      List.filter_eq_nil_iff.2 fun d hd => by simp [hclean d hd]
    rw [hd, diagnostics_process, diagnostics_settleMethods_preprocess, List.filter_append,
      List.filter_append, List.filter_append, hnone,
      filter_filterMap_of_not fun _ _ => Override.isDuplicateAccessor_of_drop?,
      filter_filterMap_of_not fun _ _ => Selection.isDuplicateAccessor_of_report?,
      filter_filterMap_of_not fun _ _ => Selection.isDuplicateAccessor_of_ambiguity?,
      List.nil_append]
  rw [diagnostics_postprocess, hmethods, habstract, harray, hname]
  rfl

end NativeClass

end ClassBindings
