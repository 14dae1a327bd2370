import ClassBindings.BindError

/-! # Edits

An `Edit` changes a value and yields another, or is refused.  What it has written before it is
refused stays written, so that leaving no trace is a property of each edit and not of the type.
The lemmas say what each way of building an edit does to the value; with them an edit is read off
without unfolding the monad. -/
namespace ClassBindings

/-- A change of a value of type `σ` that yields an `α` or is refused. -/
abbrev Edit (σ α : Type) : Type := EStateM BindError σ α

namespace Edit

variable {σ τ α β : Type}

/-- A check: it writes nothing, and refuses where the check fails. -/
def ofExcept (check : Except BindError α) : Edit σ α := fun s =>
  match check with
  | .ok a => .ok a s
  | .error e => .error e s

instance : MonadLift (Except BindError) (EStateM BindError σ) := ⟨ofExcept⟩

/-- An edit of one part of a value. -/
def within (part : σ → τ) (put : τ → σ → σ) (edit : Edit τ α) : Edit σ α := fun s =>
  match edit (part s) with
  | .ok a t => .ok a (put t s)
  | .error e t => .error e (put t s)

/-- The value that a run leaves behind, carried out or refused. -/
def left {ε : Type} : EStateM.Result ε σ α → σ
  | .ok _ s => s
  | .error _ s => s

/-! ## What the ways of building an edit do -/

theorem set_apply (s s' : σ) : (set s' : Edit σ PUnit) s = .ok ⟨⟩ s' := rfl

theorem modify_apply (f : σ → σ) (s : σ) : (modify f : Edit σ PUnit) s = .ok ⟨⟩ (f s) := rfl

theorem throw_apply (e : BindError) (s : σ) : (throw e : Edit σ α) s = .error e s := rfl

theorem check_apply_ok {check : Except BindError α} {a : α} (h : check = .ok a) (s : σ) :
    (liftM check : Edit σ α) s = .ok a s := by
  rw [h]
  rfl

theorem check_apply_error {check : Except BindError α} {e : BindError} (h : check = .error e)
    (s : σ) : (liftM check : Edit σ α) s = .error e s := by
  rw [h]
  rfl

/-- The second edit starts from what the first one left. -/
theorem bind_apply_ok {x : Edit σ α} {s s' : σ} {a : α} (h : x s = .ok a s') (f : α → Edit σ β) :
    (x >>= f) s = f a s' := by
  simp only [bind, EStateM.bind, h]

/-- **A refusal is final**: what follows it does not run. -/
theorem bind_apply_error {x : Edit σ α} {s s' : σ} {e : BindError} (h : x s = .error e s')
    (f : α → Edit σ β) : (x >>= f) s = .error e s' := by
  simp only [bind, EStateM.bind, h]

/-- An edit of a part that leaves the part alone leaves the whole alone. -/
theorem within_apply_error {part : σ → τ} {put : τ → σ → σ} {edit : Edit τ α} {s : σ}
    {e : BindError} (hput : put (part s) s = s) (h : edit (part s) = .error e (part s)) :
    within part put edit s = .error e s := by
  simp only [within, h, hput]

end Edit

end ClassBindings
