import ClassBindings.Proofs.Confluence

/-! # Phases only go forward

A class passes through its phases in one direction.  Every change of a class keeps its phase or
raises it (`Changes.phase_le`), so it never falls along a run; and it is only by a step of
resolution that a phase rises, by exactly one for each step that is carried out
(`Advances.rank_eq`).  At the end of the way a class is permanent: nothing writes a finalized class,
not even a replacement of the whole entry, which asks for the phase before it writes
(`Operation.class?_apply_of_finalized`).

None of this needs a coherent package.  It holds from every state, also from one in which entries
were put in place whose identifiers or bases are wrong. -/
namespace ClassBindings

namespace Package

variable {p q : Package} {id id' : ClassId} {c c' d d' : NativeClass}

/-! ## Phases -/

/-- **A step of resolution raises the phase by one.** -/
theorem Advances.rank_eq (h : p.Advances id c d) : d.phase.rank = c.phase.rank + 1 := by
  cases h with
  | preprocess hphase =>
    rw [hphase]
    rfl
  | process hphase _ _ =>
    rw [hphase]
    rfl
  | postprocess hphase =>
    rw [hphase]
    rfl

/-- **A change keeps the phase or raises it.** -/
theorem Changes.phase_le (h : p.Changes id c d) : c.phase ≤ d.phase := by
  cases h with
  | declare _ hd =>
    rw [hd]
    exact Nat.le_refl _
  | rebase _ _ => exact Nat.le_refl _
  | attach _ hd =>
    rw [hd]
    exact Nat.le_refl _
  | advance hd =>
    have hrank := hd.rank_eq
    show c.phase.rank ≤ d.phase.rank
    omega

/-- Along a run of steps the phase of a class never falls. -/
theorem Steps.phase_le (h : Steps p q) (hc : p.class? id = some c) :
    ∃ d, q.class? id = some d ∧ c.phase ≤ d.phase :=
  h.class? (motive := (c.phase ≤ ·.phase)) hc
    (fun _ _ _ hchange hle => Nat.le_trans hle hchange.phase_le) (Nat.le_refl _)

/-- Every class keeps its phase when one of them is replaced by a class in the same phase. -/
theorem phase_putClass (hc' : p.class? id' = some c') (hphase : d'.phase = c'.phase)
    (hc : p.class? id = some c) :
    ∃ d, (p.putClass id' d').class? id = some d ∧ d.phase = c.phase := by
  by_cases hid : id = id'
  · subst hid
    rw [hc] at hc'
    cases hc'
    exact ⟨d', class?_putClass_self hc d', hphase⟩
  · exact ⟨c, (class?_putClass_of_ne hid p d').trans hc, rfl⟩

/-! ## The three steps on a class -/

/-- The steps of resolution on one class, from the first to the last. -/
def resolutionSteps (id : ClassId) : List (Edit Package Unit) :=
  [preprocess id, process id, postprocess id]

/-- A step that is carried out lets the class advance, and touches no other. -/
theorem advances_of_resolutionStep {step : Edit Package Unit} (hstep : step ∈ resolutionSteps id)
    (h : step p = .ok () q) : ∃ c d, p.class? id = some c ∧ p.Advances id c d ∧
      q = p.putClass id d := by
  rcases List.mem_cons.1 hstep with rfl | hstep
  · obtain ⟨c, hc, hphase, rfl⟩ := preprocess_eq_ok_iff.1 h
    exact ⟨c, _, hc, .preprocess hphase, rfl⟩
  rcases List.mem_cons.1 hstep with rfl | hstep
  · obtain ⟨c, chain, hc, hphase, hchain, hancestors, rfl⟩ := process_eq_ok_iff.1 h
    exact ⟨c, _, hc, .process hphase hchain hancestors, rfl⟩
  · rw [List.mem_singleton.1 hstep] at h
    obtain ⟨c, hc, hphase, rfl⟩ := postprocess_eq_ok_iff.1 h
    exact ⟨c, _, hc, .postprocess hphase, rfl⟩

/-- A step that is refused leaves no trace. -/
theorem atomic_resolutionStep {step : Edit Package Unit} (hstep : step ∈ resolutionSteps id) :
    Edit.Atomic step := by
  rcases List.mem_cons.1 hstep with rfl | hstep
  · exact atomic_preprocess id
  rcases List.mem_cons.1 hstep with rfl | hstep
  · exact atomic_process id
  · rw [List.mem_singleton.1 hstep]
    exact atomic_postprocess id

/-! ## Finalized classes -/

/-- Replacing an entry as a whole leaves a finalized class alone, wherever the entry goes. -/
theorem class?_replaceClass_of_finalized (hc : p.class? id = some c)
    (hphase : c.phase = .finalized) (id' : ClassId) (entry : NativeClass) :
    (Edit.left (replaceClass id' entry p)).class? id = some c := by
  rw [replaceClass]
  refine left_editClass (R := fun _ q => q.class? id = some c) (set entry) hc fun c' hc' hnot => ?_
  have hne : id ≠ id' := by
    rintro rfl
    rw [hc] at hc'
    cases hc'
    exact hnot hphase
  exact (class?_putClass_of_ne hne p entry).trans hc

end Package

namespace Operation

open Package

variable {p q : Package} {id : ClassId} {c : NativeClass} {op : Operation}

/-- **No operation writes a finalized class.** -/
theorem class?_apply_of_finalized (hc : p.class? id = some c) (hphase : c.phase = .finalized)
    (op : Operation) : (op.apply p).class? id = some c := by
  by_cases hop : op.isReplacement
  · cases op with
    | replaceClass id' entry => exact class?_replaceClass_of_finalized hc hphase id' entry
    | _ => cases hop
  · exact (apply_steps hop p).class?_of_finalized hc hphase

theorem class?_run_of_finalized (hc : p.class? id = some c) (hphase : c.phase = .finalized)
    (operations : List Operation) : (run p operations).class? id = some c := by
  induction operations generalizing p with
  | nil => exact hc
  | cons op rest ih => exact ih (class?_apply_of_finalized hc hphase op)

/-- **Only resolution changes a phase.** -/
theorem Effect.phase_eq (h : Effect p op q) (hop : ¬op.isResolution) (hc : p.class? id = some c) :
    ∃ d, q.class? id = some d ∧ d.phase = c.phase := by
  cases h with
  | refl => exact ⟨c, hc, rfl⟩
  | grow _ h => exact ⟨c, h.class? hc, rfl⟩
  | declare hc' _ hd =>
    refine phase_putClass hc' ?_ hc
    rw [hd.same]
  | rebase hc' _ _ => exact phase_putClass hc' rfl hc
  | attach hc' _ _ => exact phase_putClass hc' rfl hc
  | resolve hres _ => exact absurd hres hop

end Operation

namespace Package

/-- **Phases only go forward, and the last one is for good.**  In every state of a package, a class
that is finalized stays as it is through whatever operations come, replacements of whole entries
included.  Without replacements no run takes a class back to an earlier phase; a step of resolution
that is carried out raises the phase of its class by exactly one and touches no other class, one
that is refused leaves the package as it was, and no other operation but the resolution of a class
or of the whole package changes any phase. -/
theorem phase_forward (p : Package) (id : ClassId) :
    (∀ c, p.class? id = some c → c.phase = .finalized →
      ∀ operations : List Operation, (Operation.run p operations).class? id = some c) ∧
    (∀ c, p.class? id = some c →
      ∀ operations : List Operation, (∀ op ∈ operations, ¬op.isReplacement) →
        ∃ d, (Operation.run p operations).class? id = some d ∧ c.phase ≤ d.phase) ∧
    (∀ step ∈ resolutionSteps id,
      (∀ q, step p = .ok () q →
        ∃ c d, p.class? id = some c ∧ q.class? id = some d ∧ d.phase.rank = c.phase.rank + 1 ∧
          ∀ other, other ≠ id → q.class? other = p.class? other) ∧
      ∀ e q, step p = .error e q → q = p) ∧
    ∀ c, p.class? id = some c → ∀ op : Operation, ¬op.isReplacement → ¬op.isResolution →
      ∃ d, (op.apply p).class? id = some d ∧ d.phase = c.phase := by
  refine ⟨fun c hc hphase => Operation.class?_run_of_finalized hc hphase,
    fun c hc operations hops => (Operation.run_steps hops p).phase_le hc,
    fun step hstep => ⟨fun q hq => ?_, atomic_resolutionStep hstep p⟩,
    fun c hc op hreplacement hresolution =>
      (Operation.apply_effect hreplacement p).phase_eq hresolution hc⟩
  obtain ⟨c, d, hc, hd, rfl⟩ := advances_of_resolutionStep hstep hq
  exact ⟨c, d, hc, class?_putClass_self hc d, hd.rank_eq, fun other hother =>
    class?_putClass_of_ne hother p d⟩

/-- A resolved mesh cannot be replaced, not even by the entry of another class.  Nodes that have
been tidied are processed next, and stay processed when a method is added to them in vain. -/
theorem phase_forward_mesh :
    (∃ c, (Operation.apply meshPackage .resolveAll).class? ⟨1⟩ = some c ∧ c.phase = .finalized ∧
      ∀ entry, (Operation.run (Operation.apply meshPackage .resolveAll)
        [.replaceClass ⟨1⟩ entry, .replaceClass ⟨0⟩ entry, .setBase ⟨1⟩ none]).class? ⟨1⟩ =
          some c) ∧
    ∃ c d q, (Operation.apply meshPackage (.preprocess ⟨0⟩)).class? ⟨0⟩ = some c ∧
      process ⟨0⟩ (Operation.apply meshPackage (.preprocess ⟨0⟩)) = .ok () q ∧
      q.class? ⟨0⟩ = some d ∧ d.phase.rank = c.phase.rank + 1 ∧
      ∃ e, (Operation.run q [.addMethod ⟨0⟩ (.constructor "Node")]).class? ⟨0⟩ = some e ∧
        d.phase ≤ e.phase := by
  constructor
  · have hresolved : ((Operation.apply meshPackage .resolveAll).class? ⟨1⟩).any
        (·.phase = .finalized) := by decide +kernel
    obtain ⟨c, hc, hsome⟩ := (Option.any_eq_true _ _).1 hresolved
    have hphase : c.phase = .finalized := of_decide_eq_true hsome
    exact ⟨c, hc, hphase, fun entry => (phase_forward _ _).1 c hc hphase _⟩
  · have hbegun : ((Operation.apply meshPackage (.preprocess ⟨0⟩)).class? ⟨0⟩).any
        (·.phase = .preprocessed) := by decide +kernel
    have hchain : (Operation.apply meshPackage (.preprocess ⟨0⟩)).ancestorChain ⟨0⟩ = .ok [] := by
      decide +kernel
    obtain ⟨c, hc, hsome⟩ := (Option.any_eq_true _ _).1 hbegun
    have hok := process_eq_ok_iff.2
      ⟨c, [], hc, of_decide_eq_true hsome, hchain, by simp, rfl⟩
    have hstep : process ⟨0⟩ ∈ resolutionSteps ⟨0⟩ := List.mem_cons_of_mem _ List.mem_cons_self
    obtain ⟨c', d, hc', hd, hrank, _⟩ := ((phase_forward _ _).2.2.1 _ hstep).1 _ hok
    have hlater : ∀ op ∈ [Operation.addMethod ⟨0⟩ (.constructor "Node")], ¬op.isReplacement := by
      decide
    exact ⟨c', d, _, hc', hok, hd, hrank, (phase_forward _ _).2.1 d hd _ hlater⟩

end Package

end ClassBindings
