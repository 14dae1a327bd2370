import ClassBindings.Proofs.Completion
import ClassBindings.Proofs.Permanence

/-! # Resolution is all or nothing

A step of resolution checks before it writes, and it writes one class.  So a step that is refused
leaves the package as it was, and one that is carried out leaves everything as it was but that class
(`SameElsewhere`).  This holds from every state, also where bases form a loop or lead nowhere.

Resolving a class is a loop: as long as the class is not finalized, the step is run that its phase
asks for (`resolveRounds`).  Each step that is carried out leads to the next phase, so the loop ends
within four rounds (`resolveRounds_eq`).  Only the second step can be refused on the way, hence a
class that is not resolved to the end is as it was or as the first step alone leaves it
(`resolves`). -/
namespace ClassBindings.Package

variable {p q : Package} {id : ClassId} {c d : NativeClass}

/-- The packages differ at most in the class at this position. -/
structure SameElsewhere (p : Package) (id : ClassId) (q : Package) : Prop where
  classes : ∀ other, other ≠ id → q.class? other = p.class? other
  length : q.classes.length = p.classes.length
  name : q.name = p.name
  options : q.options = p.options
  modules : q.modules = p.modules
  headers : q.headers = p.headers
  classIds : q.classIds = p.classIds
  types : q.types = p.types

theorem SameElsewhere.refl (p : Package) (id : ClassId) : p.SameElsewhere id p :=
  ⟨fun _ _ => rfl, rfl, rfl, rfl, rfl, rfl, rfl, rfl⟩

theorem sameElsewhere_putClass (p : Package) (id : ClassId) (d : NativeClass) :
    p.SameElsewhere id (p.putClass id d) :=
  ⟨fun _ hother => class?_putClass_of_ne hother p d, length_putClass p id d, rfl, rfl, rfl, rfl,
    rfl, rfl⟩

/-- The class put last stays. -/
theorem putClass_putClass (p : Package) (id : ClassId) (c d : NativeClass) :
    (p.putClass id c).putClass id d = p.putClass id d := by
  simp [putClass, List.set_set]

/-! ## Rounds -/

/-- One round of resolving a class: the step that its phase asks for.  Yields whether there is no
step left. -/
def resolveRound (id : ClassId) : Edit Package Bool := do
  match (← (← get).getClass id).phase with
  | .declared =>
    preprocess id
    return false
  | .preprocessed =>
    process id
    return false
  | .processed =>
    postprocess id
    return false
  | .finalized => return true

/-- Rounds one after another until no step is left or one is refused; nothing if so many rounds do
not suffice. -/
def resolveRounds (id : ClassId) :
    (rounds : Nat) → Package → Option (EStateM.Result BindError Package Unit)
  | 0, _ => none
  | rounds + 1, p =>
    match resolveRound id p with
    | .ok true q => some (.ok () q)
    | .ok false q => resolveRounds id rounds q
    | .error e q => some (.error e q)

theorem resolveRound_eq (hc : p.class? id = some c) :
    resolveRound id p =
      (match c.phase with
        | .declared => do preprocess id; return false
        | .preprocessed => do process id; return false
        | .processed => do postprocess id; return false
        | .finalized => return true : Edit Package Bool) p := by
  rw [resolveRound, Edit.bind_get]
  refine (Edit.bind_check_ok (getClass_of_class? hc) _ p).trans ?_
  cases c.phase <;> rfl

/-- A round with a step in it: the others follow if the step is carried out. -/
theorem resolveRounds_of_step {step : Edit Package Unit}
    (h : resolveRound id p = (do step; return false : Edit Package Bool) p) (rounds : Nat) :
    resolveRounds id (rounds + 1) p =
      match step p with
      | .ok _ q => resolveRounds id rounds q
      | .error e q => some (.error e q) := by
  rw [resolveRounds, h]
  cases hstep : step p with
  | ok u q =>
    rw [Edit.bind_apply_ok hstep]
    rfl
  | error e q => rw [Edit.bind_apply_error hstep]

/-! From each phase on, the rounds still needed are one more than the steps that remain. -/

section Phases
variable (hc : p.class? id = some c)
include hc

theorem resolveRounds_finalized (hphase : c.phase = .finalized) (rounds : Nat) :
    resolveRounds id (rounds + 1) p = some (.ok () p) := by
  rw [resolveRounds, resolveRound_eq hc, hphase]
  rfl

theorem resolveRounds_processed (hphase : c.phase = .processed) (rounds : Nat) :
    resolveRounds id (rounds + 2) p = some (postprocess id p) := by
  have hround : resolveRound id p = (do postprocess id; return false : Edit Package Bool) p := by
    rw [resolveRound_eq hc, hphase]
  have hok := postprocess_eq_ok_iff.2 ⟨c, hc, hphase, rfl⟩
  rw [resolveRounds_of_step hround, hok]
  exact resolveRounds_finalized (class?_putClass_self hc _) rfl rounds

theorem resolveRounds_preprocessed (hphase : c.phase = .preprocessed) (rounds : Nat) :
    resolveRounds id (rounds + 3) p =
      some ((do process id; postprocess id : Edit Package Unit) p) := by
  have hround : resolveRound id p = (do process id; return false : Edit Package Bool) p := by
    rw [resolveRound_eq hc, hphase]
  rw [resolveRounds_of_step hround]
  cases hstep : process id p with
  | ok u q =>
    obtain ⟨c', chain, hc', _, _, _, rfl⟩ := process_eq_ok_iff.1 hstep
    rw [Edit.bind_apply_ok hstep]
    exact resolveRounds_processed (class?_putClass_self hc' _) rfl rounds
  | error e q => rw [Edit.bind_apply_error hstep]

theorem resolveRounds_declared (hphase : c.phase = .declared) (rounds : Nat) :
    resolveRounds id (rounds + 4) p =
      some ((do preprocess id; process id; postprocess id : Edit Package Unit) p) := by
  have hround : resolveRound id p = (do preprocess id; return false : Edit Package Bool) p := by
    rw [resolveRound_eq hc, hphase]
  have hok := preprocess_eq_ok_iff.2 ⟨c, hc, hphase, rfl⟩
  rw [resolveRounds_of_step hround, hok, Edit.bind_apply_ok hok]
  exact resolveRounds_preprocessed (class?_putClass_self hc _) rfl rounds

end Phases

/-- **Four rounds suffice**, from every state of a package. -/
theorem resolveRounds_eq (id : ClassId) (rounds : Nat) (p : Package) :
    resolveRounds id (rounds + 4) p = some (resolveClass id p) := by
  cases hc : p.class? id with
  | none =>
    have herror := getClass_of_none hc
    rw [resolveRounds, resolveRound, Edit.bind_get, Edit.bind_check_error herror, resolveClass,
      Edit.bind_get, Edit.bind_check_error herror]
  | some c =>
    rw [resolveClass_eq hc]
    cases hphase : c.phase with
    | declared => exact resolveRounds_declared hc hphase rounds
    | preprocessed => exact resolveRounds_preprocessed hc hphase (rounds + 1)
    | processed => exact resolveRounds_processed hc hphase (rounds + 2)
    | finalized => exact resolveRounds_finalized hc hphase (rounds + 3)

/-! ## What comes of it -/

/-- What comes of resolving a class: it is finalized, and everything else is as it was; or nothing
has changed; or what has changed is what the first step writes. -/
inductive Resolves (p : Package) (id : ClassId) : EStateM.Result BindError Package Unit → Prop
  | finalized {c d : NativeClass} (hc : p.class? id = some c) (hd : d.phase = .finalized) :
      Resolves p id (.ok () (p.putClass id d))
  | missing {e : BindError} (hc : p.class? id = none) : Resolves p id (.error e p)
  | stopped {c : NativeClass} {e : BindError} (hc : p.class? id = some c)
      (hphase : c.phase = .preprocessed) : Resolves p id (.error e p)
  | begun {c : NativeClass} {e : BindError} {q : Package} (hc : p.class? id = some c)
      (hphase : c.phase = .declared) (hq : preprocess id p = .ok () q) : Resolves p id (.error e q)

/-- The last two steps are carried out both or neither. -/
theorem process_postprocess_cases (id : ClassId) (p : Package) :
    (∃ e, (do process id; postprocess id : Edit Package Unit) p = .error e p) ∨
    ∃ d, d.phase = .finalized ∧
      (do process id; postprocess id : Edit Package Unit) p = .ok () (p.putClass id d) := by
  cases hstep : process id p with
  | error e q =>
    cases atomic_process id p e q hstep
    exact Or.inl ⟨e, Edit.bind_apply_error hstep _⟩
  | ok u q =>
    obtain ⟨c, chain, hc, _, _, _, rfl⟩ := process_eq_ok_iff.1 hstep
    have hlast :=
      postprocess_eq_ok_iff.2 ⟨p.processEntry c chain, class?_putClass_self hc _, rfl, rfl⟩
    rw [putClass_putClass] at hlast
    exact Or.inr ⟨_, rfl, (Edit.bind_apply_ok hstep _).trans hlast⟩

theorem resolves (p : Package) (id : ClassId) : p.Resolves id (resolveClass id p) := by
  cases hc : p.class? id with
  | none =>
    rw [resolveClass, Edit.bind_get, Edit.bind_check_error (getClass_of_none hc)]
    exact .missing hc
  | some c =>
    rw [resolveClass_eq hc]
    cases hphase : c.phase with
    | declared =>
      have hok := preprocess_eq_ok_iff.2 ⟨c, hc, hphase, rfl⟩
      show p.Resolves id ((do preprocess id; process id; postprocess id : Edit Package Unit) p)
      rw [Edit.bind_apply_ok hok]
      rcases process_postprocess_cases id (p.putClass id (c.preprocess p.types.resolve p.options))
        with ⟨e, herror⟩ | ⟨d, hd, hrun⟩
      · rw [herror]
        exact .begun hc hphase hok
      · rw [hrun, putClass_putClass]
        exact .finalized hc hd
    | preprocessed =>
      show p.Resolves id ((do process id; postprocess id : Edit Package Unit) p)
      rcases process_postprocess_cases id p with ⟨e, herror⟩ | ⟨d, hd, hrun⟩
      · rw [herror]
        exact .stopped hc hphase
      · rw [hrun]
        exact .finalized hc hd
    | processed =>
      show p.Resolves id (postprocess id p)
      rw [postprocess_eq_ok_iff.2 ⟨c, hc, hphase, rfl⟩]
      exact .finalized hc rfl
    | finalized =>
      show p.Resolves id (.ok () p)
      have hsame := Resolves.finalized hc hphase
      rwa [putClass_self hc] at hsame

section Resolves
variable {result : EStateM.Result BindError Package Unit} (h : p.Resolves id result)
include h

/-- A class that has been resolved is finalized. -/
theorem Resolves.finalized_of_ok (hok : result = .ok () q) :
    ∃ d, q.class? id = some d ∧ d.phase = .finalized := by
  cases h with
  | finalized hc hd =>
    cases hok
    exact ⟨_, class?_putClass_self hc _, hd⟩
  | missing _ => cases hok
  | stopped _ _ => cases hok
  | begun _ _ _ => cases hok

/-- A class that has not been resolved is not finalized. -/
theorem Resolves.not_finalized_of_error {e : BindError} (herror : result = .error e q)
    (hd : q.class? id = some d) : d.phase ≠ .finalized := by
  cases h with
  | finalized _ _ => cases herror
  | missing hc =>
    cases herror
    rw [hc] at hd
    cases hd
  | stopped hc hphase =>
    cases herror
    rw [hc] at hd
    cases hd
    rw [hphase]
    decide
  | begun hc _ hq =>
    cases herror
    obtain ⟨c, hc', _, rfl⟩ := preprocess_eq_ok_iff.1 hq
    rw [class?_putClass_self hc'] at hd
    cases hd
    exact Phase.noConfusion

/-- **Only a class that is finalized in the end has been resolved.** -/
theorem Resolves.ok_iff : (∃ q, result = .ok () q) ↔
    ∃ d, (Edit.left result).class? id = some d ∧ d.phase = .finalized := by
  cases hresult : result with
  | ok u q =>
    have hfinal := h.finalized_of_ok hresult
    exact ⟨fun _ => hfinal, fun _ => ⟨q, rfl⟩⟩
  | error e q =>
    constructor
    · rintro ⟨q', hok⟩
      cases hok
    · rintro ⟨d, hd, hphase⟩
      exact absurd hphase (h.not_finalized_of_error hresult hd)

/-- Resolving a class changes no other. -/
theorem Resolves.sameElsewhere : p.SameElsewhere id (Edit.left result) := by
  cases h with
  | finalized _ _ => exact sameElsewhere_putClass p id _
  | missing _ => exact .refl p id
  | stopped _ _ => exact .refl p id
  | begun _ _ hq =>
    obtain ⟨c, _, _, rfl⟩ := preprocess_eq_ok_iff.1 hq
    exact sameElsewhere_putClass p id _

/-- What a refusal leaves. -/
theorem Resolves.of_error {e : BindError} (herror : result = .error e q) :
    q = p ∨ preprocess id p = .ok () q := by
  cases h with
  | finalized _ _ => cases herror
  | missing _ =>
    cases herror
    exact Or.inl rfl
  | stopped _ _ =>
    cases herror
    exact Or.inl rfl
  | begun _ _ hq =>
    cases herror
    exact Or.inr hq

end Resolves

/-- **Resolution is all or nothing.**  Let a package be in any state.  A step of resolution that is
refused leaves it as it was; one that is carried out takes the class to its next phase and changes
nothing else.  Resolving a class comes to an end within four rounds.  It is carried out exactly if
the class is finalized in the end, and in either case changes nothing but that class.  Where it is
refused, the package is as it was or as the first step alone leaves it. -/
theorem resolution_atomic (p : Package) (id : ClassId) :
    (∀ step ∈ resolutionSteps id,
      (∀ e q, step p = .error e q → q = p) ∧
      ∀ q, step p = .ok () q → p.SameElsewhere id q ∧
        ∃ c d, p.class? id = some c ∧ p.Advances id c d ∧ q.class? id = some d) ∧
    (∀ rounds, 4 ≤ rounds → resolveRounds id rounds p = some (resolveClass id p)) ∧
    ((∃ q, resolveClass id p = .ok () q) ↔
      ∃ d, (Edit.left (resolveClass id p)).class? id = some d ∧ d.phase = .finalized) ∧
    p.SameElsewhere id (Edit.left (resolveClass id p)) ∧
    ∀ e q, resolveClass id p = .error e q → q = p ∨ preprocess id p = .ok () q := by
  have hresolves := p.resolves id
  refine ⟨fun step hstep => ⟨atomic_resolutionStep hstep p, fun q hq => ?_⟩, fun rounds hle => ?_,
    hresolves.ok_iff, hresolves.sameElsewhere, fun e q => hresolves.of_error⟩
  · obtain ⟨c, d, hc, hd, rfl⟩ := advances_of_resolutionStep hstep hq
    exact ⟨sameElsewhere_putClass p id d, c, d, hc, hd, class?_putClass_self hc d⟩
  · obtain ⟨more, rfl⟩ := Nat.exists_eq_add_of_le' hle
    exact resolveRounds_eq id more p

/-- Nodes and meshes, put in place as bases of each other. -/
def tangledPackage : Package :=
  Operation.run meshPackage
    [.replaceClass ⟨0⟩
      { id := ⟨0⟩, name := "Node", nativeName := "scene::Node", module := ⟨0⟩, base := some ⟨1⟩ }]

/-- Of nodes and meshes that derive from each other neither can be resolved.  Nodes are not ready for
their second step and not touched by it; an attempt to resolve them leaves them as their first step
alone does, after two rounds and no more than four. -/
theorem resolution_atomic_tangled :
    (∃ e, process ⟨0⟩ tangledPackage = .error e tangledPackage) ∧
    ∃ e q, resolveClass ⟨0⟩ tangledPackage = .error e q ∧ q ≠ tangledPackage ∧
      preprocess ⟨0⟩ tangledPackage = .ok () q ∧ tangledPackage.SameElsewhere ⟨0⟩ q ∧
      resolveRounds ⟨0⟩ 4 tangledPackage = some (.error e q) := by
  obtain ⟨hsteps, hrounds, _, _, hrefused⟩ := resolution_atomic tangledPackage ⟨0⟩
  obtain ⟨e', q', hprocess⟩ := Edit.exists_of_not_isOk
    (by decide +kernel : ¬(process ⟨0⟩).isOk tangledPackage)
  obtain ⟨e, q, hrun⟩ := Edit.exists_of_not_isOk
    (by decide +kernel : ¬(resolveClass ⟨0⟩).isOk tangledPackage)
  have hchanged : q ≠ tangledPackage := by
    have hleft : Edit.left (resolveClass ⟨0⟩ tangledPackage) ≠ tangledPackage := by decide +kernel
    rwa [hrun] at hleft
  have hfirst : preprocess ⟨0⟩ tangledPackage = .ok () q :=
    (hrefused e q hrun).resolve_left hchanged
  refine ⟨⟨e', ?_⟩, e, q, hrun, hchanged, hfirst, ?_, hrun ▸ hrounds 4 (Nat.le_refl 4)⟩
  · have hsame := (hsteps (process ⟨0⟩) (by simp [resolutionSteps])).1 e' q' hprocess
    rw [hprocess, hsame]
  · exact ((hsteps (preprocess ⟨0⟩) (by simp [resolutionSteps])).2 q hfirst).1

end ClassBindings.Package
