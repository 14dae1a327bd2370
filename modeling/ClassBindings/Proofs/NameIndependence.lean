import ClassBindings.Proofs.OverloadLaws

/-! # Selection name by name

The methods of one name are selected from as if there were no others, and nothing is read of them
but the types of their parameters.  What stays of them is `Selection.signatureFlags` of two lists:
the signatures of these methods and those that parsed overrides of the name want
(`Selection.flagsOf_eq`).  Two selections that agree on these lists keep the same methods of the
name, whatever else they were made of (`Selection.flagsOf_congr`).

Positions play no part: a method is tested with those before it, and of these only the ones of its
own name matter, so the test can be made among them as well (`filter_zip_mapWithEarlier`). -/
namespace ClassBindings.Selection

open Override (parsedFor)

/-! ## The methods of one name -/

variable {name : String} {methods : List Method} {overrides : List Override} {m : Method}

/-- The methods of one name, in order. -/
def named (name : String) (methods : List Method) : List Method := methods.filter (·.name = name)

/-- The flags that a selection gives to the methods of one name, in order. -/
def flagsOf (name : String) (methods : List Method) (overrides : List Override) : List Bool :=
  ((methods.zip (ofOverrides methods overrides).keep).filter (·.1.name = name)).map (·.2)

/-- Flags for methods of one name with these signatures, of which some may be wanted.  All stay if
none is wanted; otherwise the first of each wanted signature stays. -/
def signatureFlags (signatures wanted : List (List TypeHash)) : List Bool :=
  mapWithEarlier (fun before signature => decide ((∀ s ∈ signatures, s ∉ wanted) ∨
    signature ∈ wanted ∧ signature ∉ before)) signatures

/-- Some override fits a method if its signature is wanted for its name. -/
theorem exists_fits_iff (hm : m.name = name) :
    (∃ o ∈ overrides, o.fits m) ↔ m.paramTypes ∈ (parsedFor name overrides).map (·.types) := by
  rw [List.mem_map]
  constructor
  · rintro ⟨o, ho, hfits⟩
    have hparsed := Override.isParsed_of_fits hfits
    obtain ⟨honame, htypes⟩ := Override.fits_iff.1 hfits
    refine ⟨o, List.mem_filter.2 ⟨ho, ?_⟩, ?_⟩
    · simp [hparsed, honame, hm]
    · rw [Override.types, htypes, Option.getD_some]
  · rintro ⟨o, ho, htypes⟩
    obtain ⟨ho, hparsed⟩ := List.mem_filter.1 ho
    simp only [Bool.and_eq_true, decide_eq_true_eq] at hparsed
    obtain ⟨types, hsome⟩ := Option.isSome_iff_exists.1 hparsed.1
    rw [Override.types, hsome, Option.getD_some] at htypes
    exact ⟨o, ho, Override.fits_iff.2 ⟨hparsed.2.trans hm.symm, hsome.trans (htypes ▸ rfl)⟩⟩

/-- A name is constrained if the signature of a method of this name is wanted. -/
theorem mem_constrained_iff_named :
    name ∈ constrained methods overrides ↔
      ∃ m ∈ named name methods, m.paramTypes ∈ (parsedFor name overrides).map (·.types) := by
  rw [mem_constrained_iff]
  constructor
  · rintro ⟨o, ho, ⟨m, hm, hfits⟩, hname⟩
    have hmname : m.name = name := (Override.name_of_fits hfits).symm.trans hname
    exact ⟨m, List.mem_filter.2 ⟨hm, by simp [hmname]⟩,
      (exists_fits_iff hmname).1 ⟨o, ho, hfits⟩⟩
  · rintro ⟨m, hm, hwanted⟩
    obtain ⟨hm, hmname⟩ := List.mem_filter.1 hm
    have hmname := of_decide_eq_true hmname
    obtain ⟨o, ho, hfits⟩ := (exists_fits_iff hmname).2 hwanted
    exact ⟨o, ho, ⟨m, hm, hfits⟩, (Override.name_of_fits hfits).trans hmname⟩

/-- Of what comes before a method only the signatures of its name matter. -/
theorem first_iff_named (hm : m.name = name) (before : List Method) :
    (∀ b ∈ before, ¬b.SameOverload m) ↔
      m.paramTypes ∉ (named name before).map Method.paramTypes := by
  rw [List.mem_map, not_exists]
  constructor
  · rintro hfirst b ⟨hb, htypes⟩
    obtain ⟨hb, hbname⟩ := List.mem_filter.1 hb
    exact hfirst b hb ⟨(of_decide_eq_true hbname).trans hm.symm, htypes⟩
  · rintro hfirst b hb ⟨hbname, htypes⟩
    exact hfirst b ⟨List.mem_filter.2 ⟨hb, by simp [hbname, hm]⟩, htypes⟩

/-- **What stays of a name is a matter of signatures.** -/
theorem flagsOf_eq (name : String) (methods : List Method) (overrides : List Override) :
    flagsOf name methods overrides =
      signatureFlags ((named name methods).map Method.paramTypes)
        ((parsedFor name overrides).map (·.types)) := by
  rw [flagsOf, keep_eq_tested, signatureFlags, mapWithEarlier_map]
  refine filter_zip_mapWithEarlier (q := fun m => m.name = name) (fun before m hm => ?_) methods
  have hmname : m.name = name := of_decide_eq_true hm
  refine decide_eq_decide.2 ?_
  rw [Stays, hmname, mem_constrained_iff_named, exists_fits_iff hmname,
    first_iff_named hmname before, List.forall_mem_map]
  simp only [not_exists, not_and]
  rfl

/-- **Names are selected from on their own.**  Let two selections be made, each from methods and
overrides of its own.  If the methods of one name have the same signatures in both, in order, and
the parsed overrides of this name want the same signatures, in order, then the same of these methods
stay. -/
theorem flagsOf_congr {methods methods' : List Method} {overrides overrides' : List Override}
    (hmethods : (named name methods).map Method.paramTypes =
      (named name methods').map Method.paramTypes)
    (hoverrides : (parsedFor name overrides).map (·.types) =
      (parsedFor name overrides').map (·.types)) :
    flagsOf name methods overrides = flagsOf name methods' overrides' := by
  rw [flagsOf_eq, flagsOf_eq, hmethods, hoverrides]

/-- Ways to move of the same signatures as `moveMethods`, among others and marked in other ways. -/
def busyMethods : List Method :=
  [{ name := "turn", flags := .empty },
    { name := "move", returns := some (.ofName "bool"), flags := .getter },
    { name := "turn", flags := .constructor },
    { name := "move", params := [⟨"steps", .ofName "int", true, true⟩], flags := .empty },
    { name := "jump", flags := .empty },
    { name := "move", params := [⟨"n", .ofName "int", false, false⟩], flags := .setter }]

/-- Choices of the same signatures of `move` as `moveOverrides`, written otherwise. -/
def busyOverrides : List Override :=
  [⟨"turn", [], some []⟩, ⟨"move", ["const int &"], some [.ofName "int"]⟩, ⟨"move", ["char"], none⟩,
    ⟨"move", ["real"], some [.ofName "float"]⟩]

/-- The same way to move stays in both, at another position and with another choice of the rest. -/
theorem flagsOf_congr_busy :
    (ofOverrides moveMethods moveOverrides).keep = [false, true, false, true, true] ∧
    (ofOverrides busyMethods busyOverrides).keep = [true, false, false, true, true, false] ∧
    flagsOf "move" busyMethods busyOverrides = [false, true, false] := by
  have hmethods : (named "move" moveMethods).map Method.paramTypes =
      (named "move" busyMethods).map Method.paramTypes := by decide +kernel
  have hoverrides : (parsedFor "move" moveOverrides).map (·.types) =
      (parsedFor "move" busyOverrides).map (·.types) := by decide +kernel
  have hmove : (ofOverrides moveMethods moveOverrides).keep =
      [false, true, false, true, true] := by decide +kernel
  refine ⟨hmove, by decide +kernel, ?_⟩
  rw [← flagsOf_congr hmethods hoverrides, flagsOf, hmove]
  decide +kernel

end ClassBindings.Selection
