/-! # Hexadecimal text

Numbers are written in lowercase hexadecimal, either without leading zeros (`hexDigits`) or to a
fixed width (`hexPadded`). -/
namespace ClassBindings.Text

/-- The digits of `n`, most significant first, without leading zeros; zero is one digit. -/
def hexDigits (n : Nat) : String := String.ofList (Nat.toDigits 16 n)

/-- The last `width` digits of `n`, most significant first. -/
def hexDigitsFixed (n : Nat) : (width : Nat) → List Char
  | 0 => []
  | width + 1 => hexDigitsFixed (n / 16) width ++ [Nat.digitChar (n % 16)]

/-- `n` in exactly `width` digits. -/
def hexPadded (width n : Nat) : String := String.ofList (hexDigitsFixed n width)

theorem length_hexDigitsFixed (n width : Nat) : (hexDigitsFixed n width).length = width := by
  induction width generalizing n with
  | zero => rfl
  | succ width ih => simp [hexDigitsFixed, ih]

end ClassBindings.Text
