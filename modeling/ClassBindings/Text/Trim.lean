import ClassBindings.Text.Blank

/-! # Removing text from either end

Names are cut down from both ends: blanks and qualifier characters go one by one
(`dropEndWhile`, `trim`), a fixed lead goes once (`stripStart?`), and a fixed ending goes as often
as it is there (`dropEndCopies`).  All of it is on lists of characters, so each law is a law of
lists.  `stripStart?_eq_some_iff` says that stripping undoes appending. -/
namespace ClassBindings.Text

/-! ## One character at a time -/

/-- The list without its longest ending of members of `p`. -/
def dropEndWhile (p : Char → Bool) (cs : List Char) : List Char := (cs.reverse.dropWhile p).reverse

/-- The list without leading blanks. -/
def trimStart (cs : List Char) : List Char := cs.dropWhile isBlank

/-- The list without leading or trailing blanks. -/
def trim (cs : List Char) : List Char := dropEndWhile isBlank (trimStart cs)

/-! ## A fixed text at one end -/

/-- What follows `start` in a list that begins with it. -/
def stripStart? : (start cs : List Char) → Option (List Char)
  | [], cs => some cs
  | _ :: _, [] => none
  | a :: start, c :: cs => if a = c then stripStart? start cs else none

theorem stripStart?_append (start rest : List Char) :
    stripStart? start (start ++ rest) = some rest := by
  induction start with
  | nil => rfl
  | cons a start ih => simpa [stripStart?] using ih

/-- **Stripping undoes appending**: what is left is what has to follow `start`. -/
theorem stripStart?_eq_some_iff {start cs rest : List Char} :
    stripStart? start cs = some rest ↔ cs = start ++ rest := by
  refine ⟨fun h => ?_, fun h => h ▸ stripStart?_append start rest⟩
  induction start generalizing cs with
  | nil => simpa [stripStart?] using h
  | cons a start ih =>
    cases cs with
    | nil => simp [stripStart?] at h
    | cons c cs =>
      simp only [stripStart?] at h
      split at h
      · rename_i hac
        rw [hac, ih h, List.cons_append]
      · simp at h

/-- The list without the copies of `start` at its head. -/
def dropCopies (start : List Char) (nonempty : start ≠ []) (cs : List Char) : List Char :=
  match _h : stripStart? start cs with
  | some rest => dropCopies start nonempty rest
  | none => cs
termination_by cs.length
decreasing_by
  have := List.length_pos_iff.2 nonempty
  rw [stripStart?_eq_some_iff.1 _h, List.length_append]
  omega

/-- The list without the copies of `ending` at its end. -/
def dropEndCopies (ending : List Char) (nonempty : ending ≠ []) (cs : List Char) : List Char :=
  (dropCopies ending.reverse (by simpa using nonempty) cs.reverse).reverse

end ClassBindings.Text
