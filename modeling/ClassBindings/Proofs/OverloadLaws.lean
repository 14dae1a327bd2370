import ClassBindings.Proofs.Earlier
import ClassBindings.Proofs.Survival

/-! # Laws of overload selection

An override tells methods apart by name and parameter types only, so all that fit it are the
`SameOverload`.  Which of them stay can then be said of each method and those before it, without
positions (`Selection.Stays`, `Selection.keep_eq_tested`): the methods of a name that no override
fits all stay, and of the others each that some override fits and that is the first of its overload.

From this come the laws of a selection (`Selection.ofOverrides_laws`).  No name is lost; the order
of the overrides and their repetitions play no part; and what a selection leaves is fixed by the
same overrides, since each of them fits at most one of the methods left
(`Selection.filter_remaining`). -/
namespace ClassBindings

/-! ## Overloads -/

/-- No override can tell the two methods apart. -/
def Method.SameOverload (m m' : Method) : Prop := m.name = m'.name ∧ m.paramTypes = m'.paramTypes

instance (m m' : Method) : Decidable (m.SameOverload m') := inferInstanceAs (Decidable (_ ∧ _))

namespace Override

variable {o : Override} {m m' : Method}

theorem fits_iff : o.fits m ↔ o.name = m.name ∧ o.types? = some m.paramTypes := by
  rw [fits]
  cases o.types? with
  | none => simp
  | some types =>
    simp only [Option.any_some, Bool.and_eq_true, decide_eq_true_eq, Method.hasSignature,
      Option.some.injEq]
    exact and_congr eq_comm eq_comm

/-- **An override fits one overload.** -/
theorem fits_iff_sameOverload (h : o.fits m) : o.fits m' ↔ m'.SameOverload m := by
  obtain ⟨hname, htypes⟩ := fits_iff.1 h
  rw [fits_iff, hname, htypes, Option.some.injEq]
  exact and_congr eq_comm eq_comm

end Override

namespace Selection

open Override (parsedFor)

/-! ## What is left by a test -/

section Retain
variable {α : Type} {test : List α → α → Bool}

theorem retain_append {keep keep' : List Bool} {xs xs' : List α} (h : keep.length = xs.length) :
    retain (keep ++ keep') (xs ++ xs') = retain keep xs ++ retain keep' xs' := by
  induction xs generalizing keep with
  | nil =>
    rw [List.eq_nil_of_length_eq_zero h]
    cases keep' <;> rfl
  | cons x xs ih =>
    cases keep with
    | nil => cases h
    | cons k keep =>
      rw [List.cons_append, List.cons_append, retain, retain, ih (Nat.succ.inj h)]
      cases k <;> rfl

theorem retain_tested_concat (test : List α → α → Bool) (xs : List α) (x : α) :
    retain (mapWithEarlier test (xs ++ [x])) (xs ++ [x]) =
      retain (mapWithEarlier test xs) xs ++ if test xs x then [x] else [] := by
  rw [mapWithEarlier_concat, retain_append (length_mapWithEarlier test xs)]
  rfl

theorem mem_retain_tested {xs : List α} {x : α} :
    x ∈ retain (mapWithEarlier test xs) xs ↔ ∃ i, xs[i]? = some x ∧ test (xs.take i) x := by
  rw [mapWithEarlier, retain_mapIdx, List.mem_map]
  constructor
  · rintro ⟨⟨y, i⟩, hmem, rfl⟩
    obtain ⟨hy, htest⟩ := List.mem_filter.1 hmem
    exact ⟨i, List.mem_zipIdx_iff_getElem?.1 hy, htest⟩
  · rintro ⟨i, hx, htest⟩
    exact ⟨(x, i), List.mem_filter.2 ⟨List.mem_zipIdx_iff_getElem?.2 hx, htest⟩, rfl⟩

/-- If a test passes, of the members with a property, just those that have none such before them,
then it passes the first of them. -/
theorem filter_retain_tested {p : α → Bool} {xs : List α}
    (h : ∀ before, ∀ x ∈ xs, p x → (test before x ↔ ∀ b ∈ before, ¬p b)) :
    (retain (mapWithEarlier test xs) xs).filter p = (xs.find? p).toList := by
  induction xs using List.reverseRecOn with
  | nil => rfl
  | append_singleton xs x ih =>
    have hxs := ih fun before y hy => h before y (List.mem_append_left _ hy)
    rw [retain_tested_concat, List.filter_append, hxs, List.find?_append]
    cases hpx : p x with
    | false => cases xs.find? p <;> cases test xs x <;> simp [hpx]
    | true =>
      have hx := h xs x (by simp) hpx
      cases hfind : xs.find? p with
      | none =>
        have htest : test xs x := hx.2 (List.find?_eq_none.1 hfind)
        simp [htest, hpx]
      | some y =>
        have hpy := List.find?_some hfind
        have htest : ¬test xs x := fun ht => hx.1 ht y (List.mem_of_find?_eq_some hfind) hpy
        simp [htest]

end Retain

/-! ## Which methods stay -/

variable {methods : List Method} {overrides : List Override} {o : Override} {m : Method}

/-- The method, with these before it, stays: no override of its name fits a method of the list, or
one fits this method and it is the first of its overload. -/
def Stays (methods : List Method) (overrides : List Override) (before : List Method) (m : Method) :
    Prop :=
  m.name ∉ constrained methods overrides ∨
    (∃ o ∈ overrides, o.fits m) ∧ ∀ b ∈ before, ¬b.SameOverload m

instance (methods : List Method) (overrides : List Override) (before : List Method) (m : Method) :
    Decidable (Stays methods overrides before m) := inferInstanceAs (Decidable (_ ∨ _))

/-- The method that an override fits first is the first of its overload. -/
theorem findIdx?_fits_iff {i : Nat} (hm : methods[i]? = some m) :
    methods.findIdx? o.fits = some i ↔ o.fits m ∧ ∀ b ∈ methods.take i, ¬b.SameOverload m := by
  obtain ⟨hi, rfl⟩ := List.getElem?_eq_some_iff.1 hm
  rw [List.findIdx?_eq_some_iff_getElem, exists_prop_of_true hi]
  refine and_congr_right fun hfits => ?_
  constructor
  · intro hnone b hb hsame
    obtain ⟨j, hj, rfl⟩ := List.mem_take_iff_getElem.1 hb
    exact hnone j (Nat.lt_of_lt_of_le hj (Nat.min_le_left ..))
      ((Override.fits_iff_sameOverload hfits).2 hsame)
  · intro hnone j hji hj
    have hmem : methods[j] ∈ methods.take i :=
      List.mem_take_iff_getElem.2 ⟨j, Nat.lt_min.2 ⟨hji, Nat.lt_trans hji hi⟩, rfl⟩
    exact hnone _ hmem ((Override.fits_iff_sameOverload hfits).1 hj)

theorem mem_constrained_iff {name : String} :
    name ∈ constrained methods overrides ↔
      ∃ o ∈ overrides, (∃ m ∈ methods, o.fits m) ∧ o.name = name := by
  simp only [constrained, List.mem_map, List.mem_filter, List.any_eq_true, and_assoc]

/-- **A selection keeps what stays**, seen with what comes before it. -/
theorem keep_eq_tested (methods : List Method) (overrides : List Override) :
    (ofOverrides methods overrides).keep =
      mapWithEarlier (fun before m => decide (Stays methods overrides before m)) methods := by
  refine List.mapIdx_eq_mapIdx_iff.2 fun i hi => ?_
  have hm : methods[i]? = some methods[i] := List.getElem?_eq_getElem hi
  have hchosen : i ∈ chosen methods overrides ↔ (∃ o ∈ overrides, o.fits methods[i]) ∧
      ∀ b ∈ methods.take i, ¬b.SameOverload methods[i] := by
    simp only [chosen, List.mem_filterMap, findIdx?_fits_iff hm, ← and_assoc, exists_and_right]
  rw [Bool.eq_iff_iff, Bool.or_eq_true, List.contains_iff_mem, hchosen, Bool.not_eq_true',
    ← Bool.not_eq_true, List.contains_iff_mem, decide_eq_true_iff, Stays, or_comm]

/-! ## What is left -/

/-- The methods that a selection leaves. -/
def remaining (methods : List Method) (overrides : List Override) : List Method :=
  retain (ofOverrides methods overrides).keep methods

theorem mem_remaining :
    m ∈ remaining methods overrides ↔
      ∃ i, methods[i]? = some m ∧ Stays methods overrides (methods.take i) m := by
  simp only [remaining, keep_eq_tested, mem_retain_tested, decide_eq_true_eq]

theorem mem_of_mem_remaining (h : m ∈ remaining methods overrides) : m ∈ methods := by
  obtain ⟨i, hi, _⟩ := mem_remaining.1 h
  exact List.mem_of_getElem? hi

/-- **Of the methods that an override fits, the first is left** and no other. -/
theorem filter_remaining (ho : o ∈ overrides) :
    (remaining methods overrides).filter o.fits = (methods.find? o.fits).toList := by
  rw [remaining, keep_eq_tested]
  refine filter_retain_tested fun before m hm hfits => ?_
  -- The name is not free, since the override fits a method of it.
  have hconstrained : m.name ∈ constrained methods overrides :=
    mem_constrained_iff.2 ⟨o, ho, ⟨m, hm, hfits⟩, Override.name_of_fits hfits⟩
  rw [decide_eq_true_iff, Stays, or_iff_right (not_not.2 hconstrained),
    and_iff_right ⟨o, ho, hfits⟩]
  exact forall₂_congr fun b _ => not_congr (Override.fits_iff_sameOverload hfits).symm

/-! ## Laws -/

/-- No name is lost. -/
theorem exists_mem_remaining (hm : m ∈ methods) (overrides : List Override) :
    ∃ k ∈ remaining methods overrides, k.name = m.name := by
  by_cases hname : m.name ∈ constrained methods overrides
  · -- The first method that the override fits has the override's name.
    obtain ⟨o, ho, ⟨m', hm', hfits⟩, honame⟩ := mem_constrained_iff.1 hname
    obtain ⟨k, hk⟩ := Option.isSome_iff_exists.1 (List.find?_isSome.2 ⟨m', hm', hfits⟩)
    have hmem : k ∈ (remaining methods overrides).filter o.fits := by
      rw [filter_remaining ho, hk]
      exact List.mem_singleton_self k
    obtain ⟨hleft, hkfits⟩ := List.mem_filter.1 hmem
    exact ⟨k, hleft, (Override.name_of_fits hkfits).symm.trans honame⟩
  · obtain ⟨i, hi⟩ := List.mem_iff_getElem?.1 hm
    exact ⟨m, mem_remaining.2 ⟨i, hi, Or.inl hname⟩, rfl⟩

/-- Only the set of the overrides matters to what stays. -/
theorem keep_congr {overrides' : List Override} (h : ∀ o, o ∈ overrides' ↔ o ∈ overrides) :
    (ofOverrides methods overrides').keep = (ofOverrides methods overrides).keep := by
  have hstays (before : List Method) (m : Method) :
      Stays methods overrides' before m ↔ Stays methods overrides before m := by
    simp only [Stays, mem_constrained_iff, h]
  rw [keep_eq_tested, keep_eq_tested]
  exact congrArg (mapWithEarlier · methods) (funext₂ fun before m => decide_eq_decide.2 (hstays before m))

/-- What is left stays if it is selected from again. -/
theorem stays_remaining {i : Nat} (hm : (remaining methods overrides)[i]? = some m) :
    Stays (remaining methods overrides) overrides ((remaining methods overrides).take i) m := by
  obtain ⟨_, _, hfree | ⟨⟨o, ho, hfits⟩, _⟩⟩ := mem_remaining.1 (List.mem_of_getElem? hm)
  · refine Or.inl fun hname => hfree ?_
    obtain ⟨o, ho, ⟨m', hm', hfits⟩, honame⟩ := mem_constrained_iff.1 hname
    exact mem_constrained_iff.2 ⟨o, ho, ⟨m', mem_of_mem_remaining hm', hfits⟩, honame⟩
  · -- A method of the same overload before this one would be a second one that the override fits.
    refine Or.inr ⟨⟨o, ho, hfits⟩, fun b hb hsame => ?_⟩
    have hbefore : 0 < (((remaining methods overrides).take i).filter o.fits).length :=
      List.length_pos_of_mem
        (List.mem_filter.2 ⟨hb, (Override.fits_iff_sameOverload hfits).2 hsame⟩)
    have hdrop : ((remaining methods overrides).drop i)[0]? = some m := by
      rwa [List.getElem?_drop, Nat.add_zero]
    have hafter : 0 < (((remaining methods overrides).drop i).filter o.fits).length :=
      List.length_pos_of_mem (List.mem_filter.2 ⟨List.mem_of_getElem? hdrop, hfits⟩)
    have hone : ((remaining methods overrides).filter o.fits).length ≤ 1 := by
      rw [filter_remaining ho]
      cases methods.find? o.fits <;> simp
    rw [← List.take_append_drop i (remaining methods overrides), List.filter_append,
      List.length_append] at hone
    omega

/-- The report on an override, made again for what is left: it stays if nothing fitted. -/
theorem report?_remaining (ho : o ∈ overrides) :
    report? (remaining methods overrides) o =
      (report? methods o).filter (·.isUnmatchedOverride) := by
  have hcount : (remaining methods overrides).countP o.fits =
      (methods.find? o.fits).toList.length := by
    rw [List.countP_eq_length_filter, filter_remaining ho]
  rw [report?, hcount, report?]
  cases hfind : methods.find? o.fits with
  | none =>
    have hzero : methods.countP o.fits = 0 := List.countP_eq_zero.2 (List.find?_eq_none.1 hfind)
    rw [hzero]
    rfl
  | some m =>
    have hpos : 0 < methods.countP o.fits :=
      List.countP_pos_iff.2 ⟨m, List.mem_of_find?_eq_some hfind, List.find?_some hfind⟩
    obtain ⟨n, hn⟩ := Nat.exists_eq_add_of_lt hpos
    rw [hn, Nat.zero_add]
    cases n <;> rfl

/-- **The laws of overload selection**, whatever the methods and the overrides, parsed or not.  Every
name keeps a method.  Overrides in another order or repeated keep the same methods.  Selecting again
from what is left keeps all of it; of the first reports it makes those on overrides that fit nothing
again, and no others. -/
theorem ofOverrides_laws (methods : List Method) (overrides : List Override) :
    (∀ m ∈ methods, ∃ k ∈ remaining methods overrides, k.name = m.name) ∧
    (∀ overrides' : List Override, (∀ o, o ∈ overrides' ↔ o ∈ overrides) →
      (ofOverrides methods overrides').keep = (ofOverrides methods overrides).keep) ∧
    (ofOverrides (remaining methods overrides) overrides).keep =
      (remaining methods overrides).map (fun _ => true) ∧
    (ofOverrides (remaining methods overrides) overrides).diagnostics =
      (ofOverrides methods overrides).diagnostics.filter (·.isUnmatchedOverride) := by
  refine ⟨fun m hm => exists_mem_remaining hm overrides, fun _ h => keep_congr h, ?_, ?_⟩
  · rw [keep_eq_tested]
    exact mapWithEarlier_eq_map fun i m hm => decide_eq_true (stays_remaining hm)
  · rw [ofOverrides, ofOverrides, List.filter_filterMap]
    exact List.filterMap_congr fun o ho => report?_remaining (List.mem_filter.1 ho).1

/-- Three ways to move, of which two take the same, and two ways to turn. -/
def moveMethods : List Method :=
  [{ name := "move", flags := .empty }, .setter "move" (.ofName "int"),
    { name := "move", params := [⟨"steps", .ofName "int", true, true⟩], flags := .empty },
    { name := "turn", flags := .empty }, .setter "turn" (.ofName "float")]

/-- The choice of one way to move, a choice that nothing fits, and one that is not parsed. -/
def moveOverrides : List Override :=
  [⟨"move", ["int"], some [.ofName "int"]⟩, ⟨"move", ["float"], some [.ofName "float"]⟩,
    ⟨"turn", ["float"], none⟩]

/-- The first of the two ways to move that take the same is left, and both ways to turn are; it is
chosen again without doubt, and only the choice that nothing fits is reported again. -/
theorem ofOverrides_laws_move :
    (∃ k ∈ remaining moveMethods moveOverrides, k.name = "move") ∧
    (ofOverrides moveMethods (moveOverrides.reverse ++ moveOverrides)).keep =
      [false, true, false, true, true] ∧
    (ofOverrides moveMethods moveOverrides).diagnostics =
      [.ambiguousOverride "move" "int" 2, .unmatchedOverride "move" "float"] ∧
    (ofOverrides (remaining moveMethods moveOverrides) moveOverrides).keep = [true, true, true] ∧
    (ofOverrides (remaining moveMethods moveOverrides) moveOverrides).diagnostics =
      [.unmatchedOverride "move" "float"] := by
  obtain ⟨hnames, hset, hkeep, hreports⟩ := ofOverrides_laws moveMethods moveOverrides
  have hfirst : (ofOverrides moveMethods moveOverrides).keep =
      [false, true, false, true, true] := by decide +kernel
  have hdiagnostics : (ofOverrides moveMethods moveOverrides).diagnostics =
      [.ambiguousOverride "move" "int" 2, .unmatchedOverride "move" "float"] := by decide +kernel
  have hsame : ∀ o, o ∈ moveOverrides.reverse ++ moveOverrides ↔ o ∈ moveOverrides := by simp
  refine ⟨hnames { name := "move", flags := .empty } (by decide +kernel),
    (hset _ hsame).trans hfirst, hdiagnostics, ?_, ?_⟩
  · rw [hkeep, remaining, hfirst]
    rfl
  · rw [hreports, hdiagnostics]
    rfl

end Selection

end ClassBindings
