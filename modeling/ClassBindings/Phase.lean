/-! # Phases of a class

A class is declared, then resolved in three steps, each of which takes it from one phase to the
next.  Phases are ordered by `Phase.rank`; `Phase.predecessor?` is the phase a step starts from, and
`rank_predecessor` says that a step advances the rank by exactly one. -/
namespace ClassBindings

/-- How far a class has been resolved. -/
inductive Phase where
  /-- As written by the declaration. -/
  | declared
  /-- Skip markers are applied and overrides parsed. -/
  | preprocessed
  /-- Bases are flattened, overloads chosen and properties built. -/
  | processed
  /-- Checked, and read-only from here on. -/
  | finalized
deriving DecidableEq

namespace Phase

/-- The phases from first to last. -/
def all : List Phase := [declared, preprocessed, processed, finalized]

/-- The position of a phase among all of them. -/
def rank : Phase → Nat
  | declared => 0
  | preprocessed => 1
  | processed => 2
  | finalized => 3

instance : LT Phase := ⟨fun a b => a.rank < b.rank⟩

instance : LE Phase := ⟨fun a b => a.rank ≤ b.rank⟩

instance (a b : Phase) : Decidable (a < b) := inferInstanceAs (Decidable (a.rank < b.rank))

instance (a b : Phase) : Decidable (a ≤ b) := inferInstanceAs (Decidable (a.rank ≤ b.rank))

/-- The phase from which this one is entered. -/
def predecessor? : Phase → Option Phase
  | declared => none
  | preprocessed => some declared
  | processed => some preprocessed
  | finalized => some processed

/-- Nothing changes a class after this phase. -/
def isFinalized (phase : Phase) : Bool := phase = finalized

/-- The phase in a message. -/
def text : Phase → String
  | declared => "declared"
  | preprocessed => "preprocessed"
  | processed => "processed"
  | finalized => "finalized"

/-- **A step advances the rank by one.** -/
theorem rank_predecessor {a b : Phase} (h : b.predecessor? = some a) : b.rank = a.rank + 1 := by
  cases b <;> simp only [predecessor?, reduceCtorEq, Option.some.injEq] at h <;> subst h <;> rfl

theorem not_lt {a b : Phase} : ¬a < b ↔ b ≤ a := Nat.not_lt

theorem not_le {a b : Phase} : ¬a ≤ b ↔ b < a := Nat.not_le

end Phase

end ClassBindings
