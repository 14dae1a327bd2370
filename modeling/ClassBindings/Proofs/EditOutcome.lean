import ClassBindings.Edit

/-! # Outcomes of edits

An edit is built from reads, checks and writes.  This module reads its outcome off the way it is
built, whatever comes of it: `bind_check_eq_ok_iff` for an edit that is carried out, `Keeps` for the
value that is left in either case, `Refused` for an edit that is not carried out and leaves no
trace, and `Atomic` for one that leaves none whenever it is refused. -/
namespace ClassBindings.Edit

variable {σ τ α β : Type}

/-! ## Reads and checks -/

theorem bind_get (f : σ → Edit σ α) (s : σ) : ((get : Edit σ σ) >>= f) s = f s s := rfl

/-- What follows a check that holds runs on the same value. -/
theorem bind_check_ok {check : Except BindError α} {a : α} (h : check = .ok a)
    (f : α → Edit σ β) (s : σ) : ((liftM check : Edit σ α) >>= f) s = f a s :=
  bind_apply_ok (check_apply_ok h s) f

/-- What follows a check that fails does not run. -/
theorem bind_check_error {check : Except BindError α} {e : BindError} (h : check = .error e)
    (f : α → Edit σ β) (s : σ) : ((liftM check : Edit σ α) >>= f) s = .error e s :=
  bind_apply_error (check_apply_error h s) f

/-- **An edit behind a check is carried out exactly if the check holds and what follows it is.** -/
theorem bind_check_eq_ok_iff {check : Except BindError α} {f : α → Edit σ β} {s s' : σ} {b : β} :
    ((liftM check : Edit σ α) >>= f) s = .ok b s' ↔ ∃ a, check = .ok a ∧ f a s = .ok b s' := by
  cases hcheck : check with
  | ok a =>
    rw [bind_check_ok rfl]
    constructor
    · exact fun h => ⟨a, rfl, h⟩
    · rintro ⟨a', ha, h⟩
      cases ha
      exact h
  | error e =>
    rw [bind_check_error rfl]
    constructor
    · intro h
      cases h
    · rintro ⟨a, ha, _⟩
      cases ha

/-! ## Whether an edit is carried out -/

/-- The edit is carried out here. -/
def isOk (x : Edit σ α) (s : σ) : Bool :=
  match x s with
  | .ok _ _ => true
  | .error _ _ => false

theorem exists_of_isOk {x : Edit σ α} {s : σ} (h : x.isOk s) : ∃ a s', x s = .ok a s' := by
  rw [isOk] at h
  split at h
  · exact ⟨_, _, ‹_›⟩
  · cases h

theorem exists_of_not_isOk {x : Edit σ α} {s : σ} (h : ¬x.isOk s) : ∃ e s', x s = .error e s' := by
  rw [isOk] at h
  split at h
  · exact absurd rfl h
  · exact ⟨_, _, ‹_›⟩

/-! ## What an edit leaves -/

/-- The value before an edit and the one it leaves, carried out or refused, are related by `R`. -/
def Keeps (R : σ → σ → Prop) (x : Edit σ α) : Prop := ∀ s, R s (left (x s))

/-- What an edit behind a check leaves: the old value where the check fails. -/
theorem left_bind_check {R : σ → σ → Prop} {check : Except BindError α} {f : α → Edit σ β} {s : σ}
    (hrefl : R s s) (h : ∀ a, check = .ok a → R s (left (f a s))) :
    R s (left (((liftM check : Edit σ α) >>= f) s)) := by
  cases hcheck : check with
  | ok a =>
    rw [bind_check_ok rfl]
    exact h a hcheck
  | error e =>
    rw [bind_check_error rfl]
    exact hrefl

theorem Keeps.mono {R R' : σ → σ → Prop} {x : Edit σ α} (h : Keeps R x)
    (himp : ∀ a b, R a b → R' a b) : Keeps R' x := fun s => himp s _ (h s)

/-- Two edits one after the other, as far as they go. -/
theorem Keeps.bind {R : σ → σ → Prop} (htrans : ∀ a b c, R a b → R b c → R a c) {x : Edit σ α}
    {f : α → Edit σ β} (hx : Keeps R x) (hf : ∀ a, Keeps R (f a)) : Keeps R (x >>= f) := by
  intro s
  have hs := hx s
  cases h : x s with
  | ok a s' =>
    rw [bind_apply_ok h]
    rw [h] at hs
    exact htrans _ _ _ hs (hf a s')
  | error e s' =>
    rw [bind_apply_error h]
    rwa [h] at hs

/-- An edit of a part changes the part only. -/
theorem Keeps.within {R : σ → σ → Prop} {part : σ → τ} {put : τ → σ → σ} (h : ∀ t s, R s (put t s))
    (edit : Edit τ α) : Keeps R (within part put edit) := by
  intro s
  show R s (left (Edit.within part put edit s))
  rw [Edit.within]
  cases edit (part s) <;> exact h _ s

/-! ## Edits that leave no trace -/

/-- The edit is refused here, and leaves the value as it was. -/
def Refused (x : Edit σ α) (s : σ) : Prop := ∃ e, x s = .error e s

theorem Refused.bind {x : Edit σ α} {s : σ} (h : Refused x s) (f : α → Edit σ β) :
    Refused (x >>= f) s := by
  obtain ⟨e, he⟩ := h
  exact ⟨e, bind_apply_error he f⟩

/-- An edit behind a check is refused where the check fails, or else where the rest is. -/
theorem Refused.bind_check {check : Except BindError α} {f : α → Edit σ β} {s : σ}
    (h : ∀ a, check = .ok a → Refused (f a) s) : Refused ((liftM check : Edit σ α) >>= f) s := by
  cases hcheck : check with
  | ok a =>
    obtain ⟨e, he⟩ := h a hcheck
    exact ⟨e, (bind_check_ok rfl f s).trans he⟩
  | error e => exact ⟨e, bind_check_error rfl f s⟩

/-- A refusal leaves the value as it was. -/
def Atomic (x : Edit σ α) : Prop := ∀ s e s', x s = .error e s' → s' = s

theorem Atomic.set (s : σ) : Atomic (set s : Edit σ PUnit) := by
  intro s₀ e s' h
  cases h

theorem Atomic.bind_get {f : σ → Edit σ α} (h : ∀ s, Atomic (f s)) :
    Atomic ((get : Edit σ σ) >>= f) := fun s e s' hs => h s s e s' hs

/-- **Checks leave no trace**: an edit that only checks before it writes is atomic. -/
theorem Atomic.bind_check {check : Except BindError α} {f : α → Edit σ β}
    (h : ∀ a, Atomic (f a)) : Atomic ((liftM check : Edit σ α) >>= f) := by
  intro s e s' hs
  cases hcheck : check with
  | ok a =>
    rw [bind_check_ok hcheck] at hs
    exact h a s e s' hs
  | error e' =>
    rw [bind_check_error hcheck] at hs
    cases hs
    rfl

end ClassBindings.Edit
