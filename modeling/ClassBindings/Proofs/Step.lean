import ClassBindings.Package.History
import ClassBindings.Proofs.EditOutcome
import Mathlib.Logic.Relation

/-! # Steps of a history

Operations are refused or carried out, in part or whole, and some do much at once.  Underneath, a
package changes in few ways.  A class `Advances` from its phase to the next, and a class `Changes`
where it advances, or its declaration, its base or its hand-attached properties are written.  A
`Pass` advances one class, and all that resolution does is a sequence of passes
(`keeps_resolveClass`, `passes_resolveAll`).  A `Growth` adds a class, or something that no class
notices.  A `Step` is a growth or a change of one class, and what steps do to the class at one
position is to leave it or to change it (`Step.class?`). -/
namespace ClassBindings

namespace NativeClass

theorem checkPhase_eq_ok_iff {c : NativeClass} {requested : Phase} {u : Unit} :
    c.checkPhase requested = .ok u ↔ requested.predecessor? = some c.phase := by
  rw [checkPhase]
  split <;> simp_all

theorem checkDeclared_eq_ok_iff {c : NativeClass} {u : Unit} :
    c.checkDeclared = .ok u ↔ c.phase = .declared := by
  rw [checkDeclared]
  split <;> simp_all

/-- The classes differ at most in what a declaration writes. -/
def SameButDeclaration (c d : NativeClass) : Prop :=
  d = { c with
    header := d.header, methods := d.methods, overrides := d.overrides, skips := d.skips,
    isAbstract := d.isAbstract, isObject := d.isObject, arrayHint := d.arrayHint }

/-- The classes differ at most in their properties and in what was reported on them. -/
def SameButProperties (c d : NativeClass) : Prop :=
  d = { c with
    properties := d.properties, hasProperties := d.hasProperties, diagnostics := d.diagnostics }

/-- The classes differ at most in what is still written of a processed class: its properties, what
was reported on it, and its phase. -/
def SameButFinish (c d : NativeClass) : Prop :=
  d = { c with
    properties := d.properties, hasProperties := d.hasProperties, phase := d.phase,
    diagnostics := d.diagnostics }

theorem SameButFinish.refl (c : NativeClass) : c.SameButFinish c := rfl

theorem SameButFinish.trans {c d e : NativeClass} (h : c.SameButFinish d)
    (h' : d.SameButFinish e) : c.SameButFinish e := by
  unfold SameButFinish at h h' ⊢
  rw [h', h]

theorem SameButProperties.refl (c : NativeClass) : c.SameButProperties c := rfl

theorem SameButProperties.trans {c d e : NativeClass} (h : c.SameButProperties d)
    (h' : d.SameButProperties e) : c.SameButProperties e := by
  unfold SameButProperties at h h' ⊢
  rw [h', h]

end NativeClass


namespace Package

variable {p q : Package} {id : ClassId} {c : NativeClass}

theorem getClass_eq_ok_iff : p.getClass id = .ok c ↔ p.class? id = some c := by
  rw [getClass]
  split <;> simp_all

theorem checkProcessed_eq_ok_iff {ancestors : List NativeClass} {u : Unit} :
    checkProcessed c ancestors = .ok u ↔ ∀ a ∈ ancestors, .processed ≤ a.phase := by
  rw [checkProcessed]
  split
  · rename_i base hbase
    have hlt : base.phase < .processed := by simpa using List.find?_some hbase
    refine ⟨fun h => (by cases h), fun h => ?_⟩
    exact absurd (h base (List.mem_of_find?_eq_some hbase)) (Nat.not_le_of_lt hlt)
  · rename_i hnone
    refine ⟨fun _ a ha => ?_, fun _ => rfl⟩
    have hnot : ¬a.phase < .processed := by simpa using List.find?_eq_none.1 hnone a ha
    exact Nat.not_lt.1 hnot

/-! ## Passes -/

/-- What the second step makes of a class with these ancestors. -/
def processEntry (p : Package) (c : NativeClass) (chain : List ClassId) : NativeClass :=
  let ancestors := chain.filterMap p.class?
  c.process p.options chain (p.inObjectHierarchy c ancestors) (.collect c ancestors)

/-- The class at a position goes from its phase to the next. -/
inductive Advances (p : Package) (id : ClassId) (c : NativeClass) : NativeClass → Prop
  | preprocess (hphase : c.phase = .declared) :
      Advances p id c (c.preprocess p.types.resolve p.options)
  | process {chain : List ClassId} (hphase : c.phase = .preprocessed)
      (hchain : p.ancestorChain id = .ok chain)
      (hancestors : ∀ a ∈ chain.filterMap p.class?, .processed ≤ a.phase) :
      Advances p id c (p.processEntry c chain)
  | postprocess (hphase : c.phase = .processed) : Advances p id c c.postprocess

/-! The phase of a class says what it advances to. -/

section Advances
variable {d : NativeClass} (h : p.Advances id c d)
include h

theorem Advances.of_declared (hphase : c.phase = .declared) :
    d = c.preprocess p.types.resolve p.options := by
  cases h with
  | preprocess _ => rfl
  | process hphase' _ _ => exact absurd (hphase ▸ hphase') (by decide)
  | postprocess hphase' => exact absurd (hphase ▸ hphase') (by decide)

theorem Advances.of_preprocessed (hphase : c.phase = .preprocessed) :
    ∃ chain, p.ancestorChain id = .ok chain ∧
      (∀ a ∈ chain.filterMap p.class?, .processed ≤ a.phase) ∧ d = p.processEntry c chain := by
  cases h with
  | preprocess hphase' => exact absurd (hphase ▸ hphase') (by decide)
  | process _ hchain hancestors => exact ⟨_, hchain, hancestors, rfl⟩
  | postprocess hphase' => exact absurd (hphase ▸ hphase') (by decide)

theorem Advances.of_processed (hphase : c.phase = .processed) : d = c.postprocess := by
  cases h with
  | preprocess hphase' => exact absurd (hphase ▸ hphase') (by decide)
  | process hphase' _ _ => exact absurd (hphase ▸ hphase') (by decide)
  | postprocess _ => rfl

end Advances

/-- A finalized class does not advance. -/
theorem Advances.not_finalized {d : NativeClass} (h : p.Advances id c d) :
    c.phase ≠ .finalized := by
  intro hfinal
  cases h with
  | preprocess hphase => exact absurd (hfinal ▸ hphase) (by decide)
  | process hphase _ _ => exact absurd (hfinal ▸ hphase) (by decide)
  | postprocess hphase => exact absurd (hfinal ▸ hphase) (by decide)

/-- One class goes from its phase to the next. -/
inductive Pass (p : Package) : Package → Prop
  | advance {id : ClassId} {c d : NativeClass} (hc : p.class? id = some c)
      (h : p.Advances id c d) : Pass p (p.putClass id d)

/-- Passes one after another. -/
def Passes : Package → Package → Prop := Relation.ReflTransGen Pass

/-! ### The passes of resolution -/

theorem preprocess_eq_ok_iff :
    preprocess id p = .ok () q ↔ ∃ c, p.class? id = some c ∧ c.phase = .declared ∧
      q = p.putClass id (c.preprocess p.types.resolve p.options) := by
  simp only [preprocess, Edit.bind_get, Edit.bind_check_eq_ok_iff, getClass_eq_ok_iff,
    NativeClass.checkPhase_eq_ok_iff, Phase.predecessor?, Edit.set_apply, exists_const,
    Option.some.injEq]
  constructor
  · rintro ⟨c, hc, hphase, h⟩
    cases h
    exact ⟨c, hc, hphase.symm, rfl⟩
  · rintro ⟨c, hc, hphase, rfl⟩
    exact ⟨c, hc, hphase.symm, rfl⟩

theorem process_eq_ok_iff :
    process id p = .ok () q ↔ ∃ c chain, p.class? id = some c ∧ c.phase = .preprocessed ∧
      p.ancestorChain id = .ok chain ∧
      (∀ a ∈ chain.filterMap p.class?, .processed ≤ a.phase) ∧
      q = p.putClass id (p.processEntry c chain) := by
  simp only [process, Edit.bind_get, Edit.bind_check_eq_ok_iff, getClass_eq_ok_iff,
    NativeClass.checkPhase_eq_ok_iff, Phase.predecessor?, checkProcessed_eq_ok_iff,
    Edit.set_apply, exists_const, Option.some.injEq]
  constructor
  · rintro ⟨c, hc, hphase, chain, hchain, hancestors, h⟩
    cases h
    exact ⟨c, chain, hc, hphase.symm, hchain, hancestors, rfl⟩
  · rintro ⟨c, chain, hc, hphase, hchain, hancestors, rfl⟩
    exact ⟨c, hc, hphase.symm, chain, hchain, hancestors, rfl⟩

theorem postprocess_eq_ok_iff :
    postprocess id p = .ok () q ↔ ∃ c, p.class? id = some c ∧ c.phase = .processed ∧
      q = p.putClass id c.postprocess := by
  simp only [postprocess, Edit.bind_get, Edit.bind_check_eq_ok_iff, getClass_eq_ok_iff,
    NativeClass.checkPhase_eq_ok_iff, Phase.predecessor?, Edit.set_apply, exists_const,
    Option.some.injEq]
  constructor
  · rintro ⟨c, hc, hphase, h⟩
    cases h
    exact ⟨c, hc, hphase.symm, rfl⟩
  · rintro ⟨c, hc, hphase, rfl⟩
    exact ⟨c, hc, hphase.symm, rfl⟩

theorem atomic_preprocess (id : ClassId) : Edit.Atomic (preprocess id) :=
  .bind_get fun _ => .bind_check fun _ => .bind_check fun _ => .set _

theorem atomic_process (id : ClassId) : Edit.Atomic (process id) :=
  .bind_get fun _ => .bind_check fun _ => .bind_check fun _ => .bind_check fun _ =>
    .bind_check fun _ => .set _

theorem atomic_postprocess (id : ClassId) : Edit.Atomic (postprocess id) :=
  .bind_get fun _ => .bind_check fun _ => .bind_check fun _ => .set _

/-- A sequence of passes is what is left of an edit that leaves no trace unless it is a pass. -/
theorem keeps_passes {edit : Edit Package Unit} (hatomic : Edit.Atomic edit)
    (hok : ∀ p q, edit p = .ok () q → Pass p q) : Edit.Keeps Passes edit := by
  intro p
  cases h : edit p with
  | ok u q => exact .single (hok p q h)
  | error e q =>
    rw [hatomic p e q h]
    exact .refl

theorem keeps_preprocess (id : ClassId) : Edit.Keeps Passes (preprocess id) := by
  refine keeps_passes (atomic_preprocess id) fun p q h => ?_
  obtain ⟨c, hc, hphase, rfl⟩ := preprocess_eq_ok_iff.1 h
  exact .advance hc (.preprocess hphase)

theorem keeps_process (id : ClassId) : Edit.Keeps Passes (process id) := by
  refine keeps_passes (atomic_process id) fun p q h => ?_
  obtain ⟨c, chain, hc, hphase, hchain, hancestors, rfl⟩ := process_eq_ok_iff.1 h
  exact .advance hc (.process hphase hchain hancestors)

theorem keeps_postprocess (id : ClassId) : Edit.Keeps Passes (postprocess id) := by
  refine keeps_passes (atomic_postprocess id) fun p q h => ?_
  obtain ⟨c, hc, hphase, rfl⟩ := postprocess_eq_ok_iff.1 h
  exact .advance hc (.postprocess hphase)

theorem keeps_resolveClass (id : ClassId) : Edit.Keeps Passes (resolveClass id) := by
  have hpost := keeps_postprocess id
  have hproc : Edit.Keeps Passes (do process id; postprocess id) :=
    .bind (fun _ _ _ => Relation.ReflTransGen.trans) (keeps_process id) fun _ => hpost
  intro p
  rw [resolveClass, Edit.bind_get]
  refine Edit.left_bind_check .refl fun c _ => ?_
  cases c.phase with
  | declared =>
    exact Edit.Keeps.bind (fun _ _ _ => Relation.ReflTransGen.trans) (keeps_preprocess id)
      (fun _ => hproc) p
  | preprocessed => exact hproc p
  | processed => exact hpost p
  | finalized => exact .refl

theorem resolveNext_snd (report : Report) (id : ClassId) (p : Package) :
    (resolveNext report id p).2 = Edit.left (resolveClass id p) := by
  rw [resolveNext]
  cases resolveClass id p with
  | ok u q => cases h : q.class? id <;> simp [h, Edit.left]
  | error e q => cases h : q.class? id <;> simp [h, Edit.left]

theorem passes_foldl_resolveNext (ids : List ClassId) (report : Report) (p : Package) :
    Passes p (ids.foldl (fun s id => resolveNext s.1 id s.2) (report, p)).2 := by
  induction ids generalizing p report with
  | nil => exact .refl
  | cons id rest ih =>
    have hfirst : Passes p (resolveNext report id p).2 := by
      rw [resolveNext_snd]
      exact keeps_resolveClass id p
    exact Relation.ReflTransGen.trans hfirst (ih _ (resolveNext report id p).2)

theorem passes_resolveAll (p : Package) : Passes p (Edit.left (resolveAll p)) := by
  rw [resolveAll]
  split
  · exact passes_foldl_resolveNext _ {} p
  · exact .refl
  · exact .refl

/-! ## Steps -/

/-- The class at a position changes in one of the ways in which classes change. -/
inductive Changes (p : Package) (id : ClassId) (c : NativeClass) : NativeClass → Prop
  | declare {d : NativeClass} (hphase : c.phase = .declared) (h : c.SameButDeclaration d) :
      Changes p id c d
  | rebase {base : Option ClassId} (hphase : c.phase = .declared)
      (hbase : p.checkBase c id base = .ok ()) : Changes p id c { c with base }
  | attach {d : NativeClass} (hphase : c.phase ≠ .finalized) (h : c.SameButProperties d) :
      Changes p id c d
  | advance {d : NativeClass} (h : p.Advances id c d) : Changes p id c d

/-- **Nothing is done to a finalized class.** -/
theorem Changes.not_finalized {d : NativeClass} (h : p.Changes id c d) : c.phase ≠ .finalized := by
  intro hfinal
  cases h with
  | declare hphase _ => exact absurd (hfinal ▸ hphase) (by decide)
  | rebase hphase _ => exact absurd (hfinal ▸ hphase) (by decide)
  | attach hphase _ => exact hphase hfinal
  | advance hd => exact hd.not_finalized hfinal

/-- **A preprocessed class is processed next**; until then its declaration stays as it is. -/
theorem Changes.of_preprocessed {d : NativeClass} (h : p.Changes id c d)
    (hphase : c.phase = .preprocessed) :
    c.SameButProperties d ∨ ∃ chain, p.ancestorChain id = .ok chain ∧
      (∀ a ∈ chain.filterMap p.class?, .processed ≤ a.phase) ∧ d = p.processEntry c chain := by
  cases h with
  | declare hdeclared _ => exact absurd (hphase ▸ hdeclared) (by decide)
  | rebase hdeclared _ => exact absurd (hphase ▸ hdeclared) (by decide)
  | attach _ hd => exact Or.inl hd
  | advance hd => exact Or.inr (hd.of_preprocessed hphase)

/-- The package gets more of something. -/
inductive Growth (p : Package) : Package → Prop
  /-- Modules, headers, names or types change, and no class notices. -/
  | aside {q : Package} (classes : q.classes = p.classes) (options : q.options = p.options) :
      Growth p q
  | register {q : Package} {module : ModuleId} {name nativeName : String}
      (classes : q.classes = p.classes ++ [{ id := ⟨p.classes.length⟩, name, nativeName, module }])
      (options : q.options = p.options) : Growth p q

/-- One growth after another. -/
def Grows : Package → Package → Prop := Relation.ReflTransGen Growth

theorem Grows.trans (p q r : Package) (h : Grows p q) (h' : Grows q r) : Grows p r :=
  Relation.ReflTransGen.trans h h'

/-- The package changes in one of the ways in which packages change. -/
inductive Step (p : Package) : Package → Prop
  | grow {q : Package} (h : Growth p q) : Step p q
  | change {id : ClassId} {c d : NativeClass} (hc : p.class? id = some c) (h : p.Changes id c d) :
      Step p (p.putClass id d)

theorem Pass.step (h : Pass p q) : Step p q := by
  cases h with
  | advance hc h => exact .change hc (.advance h)

/-- Steps one after another. -/
def Steps : Package → Package → Prop := Relation.ReflTransGen Step

theorem Steps.trans (p q r : Package) (h : Steps p q) (h' : Steps q r) : Steps p r :=
  Relation.ReflTransGen.trans h h'

theorem Passes.steps (h : Passes p q) : Steps p q :=
  Relation.ReflTransGen.mono (fun _ _ => Pass.step) p q h

theorem Grows.steps (h : Grows p q) : Steps p q :=
  Relation.ReflTransGen.mono (fun _ _ => Step.grow) p q h

/-! ### A step and the class at one position -/

section Registered
variable {e : NativeClass} (hq : q.classes = p.classes ++ [e])
include hq

/-- A class added at the end hides none. -/
theorem class?_of_append (hc : p.class? id = some c) : q.class? id = some c := by
  rw [class?, hq, List.getElem?_append_left (lt_length_of_class? hc)]
  exact hc

theorem class?_append_cases (hc : q.class? id = some c) :
    p.class? id = some c ∨ (id = ⟨p.classes.length⟩ ∧ c = e) := by
  have hlt := lt_length_of_class? hc
  rw [hq, List.length_append, List.length_singleton] at hlt
  rw [class?, hq] at hc
  rcases Nat.lt_or_ge id.index p.classes.length with hold | hnew
  · rw [List.getElem?_append_left hold] at hc
    exact Or.inl hc
  · have hindex : id.index = p.classes.length := by omega
    rw [hindex, List.getElem?_concat_length] at hc
    refine Or.inr ⟨?_, (Option.some.inj hc).symm⟩
    rw [← hindex]

end Registered

/-- **A package that grows keeps its classes.** -/
theorem Growth.class? (h : Growth p q) (hc : p.class? id = some c) : q.class? id = some c := by
  cases h with
  | aside hclasses _ => rwa [Package.class?, hclasses]
  | register hclasses _ => exact class?_of_append hclasses hc

theorem Grows.class? (h : Grows p q) (hc : p.class? id = some c) : q.class? id = some c := by
  induction h with
  | refl => exact hc
  | tail _ hgrowth ih => exact hgrowth.class? ih

/-- **The class at a position stays or changes in one of the ways in which classes change.** -/
theorem Step.class? (h : Step p q) (hc : p.class? id = some c) :
    ∃ d, q.class? id = some d ∧ (d = c ∨ p.Changes id c d) := by
  cases h with
  | grow h => exact ⟨c, h.class? hc, Or.inl rfl⟩
  | @change id' c' d' hc' hd =>
    by_cases hid : id = id'
    · subst hid
      rw [hc] at hc'
      cases hc'
      exact ⟨d', class?_putClass_self hc d', Or.inr hd⟩
    · exact ⟨c, (class?_putClass_of_ne hid p d').trans hc, Or.inl rfl⟩

/-- What each change of the class at a position keeps, all steps keep of it. -/
theorem Steps.class? {motive : NativeClass → Prop} (h : Steps p q) (hc : p.class? id = some c)
    (change : ∀ p c d, Changes p id c d → motive c → motive d) (hmotive : motive c) :
    ∃ d, q.class? id = some d ∧ motive d := by
  induction h with
  | refl => exact ⟨c, hc, hmotive⟩
  | tail _ hstep ih =>
    obtain ⟨d, hd, hm⟩ := ih
    obtain ⟨e, he, rfl | hchange⟩ := hstep.class? hd
    · exact ⟨_, he, hm⟩
    · exact ⟨e, he, change _ _ _ hchange hm⟩

/-- What a step keeps, a sequence of steps keeps. -/
theorem Steps.invariant {motive : Package → Prop} (h : Steps p q)
    (step : ∀ p q, Step p q → motive p → motive q) (hp : motive p) : motive q := by
  induction h with
  | refl => exact hp
  | tail _ hstep ih => exact step _ _ hstep ih

end Package

end ClassBindings
