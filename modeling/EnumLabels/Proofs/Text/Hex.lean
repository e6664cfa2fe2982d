import EnumLabels.Text.Hex
import Mathlib.Algebra.Group.Nat.Defs

/-!
# Hexadecimal digits are read back

Reading the digits that were written gives the number, as far as the width holds it.
-/

namespace EnumLabels.Text

/-- A digit has the value for which it is written. -/
theorem hexValue?_hexDigit (letters : HexCase) {n : Nat} (h : n < 16) :
    hexValue? (hexDigit letters n) = some n := by
  have hall : ∀ letters ∈ [HexCase.lower, HexCase.upper], ∀ n < 16,
      hexValue? (hexDigit letters n) = some n := by decide
  exact hall letters (by cases letters <;> simp) n h

/-- Digits are read behind a number already read, and the remaining width from what follows. -/
theorem readHexFrom?_hexDigits (letters : HexCase) (value width n : Nat) (more : Nat)
    (rest : List Char) :
    readHexFrom? value (width + more) (hexDigits letters width n ++ rest) =
      readHexFrom? (16 ^ width * value + n % 16 ^ width) more rest := by
  induction width generalizing n more rest with
  | zero => simp [hexDigits, Nat.mod_one]
  | succ width ih =>
    have hdigit := hexValue?_hexDigit letters (Nat.mod_lt n (by decide : 0 < 16))
    have hwidth : width + 1 + more = width + (more + 1) := by omega
    have hvalue : 16 * (16 ^ width * value + n / 16 % 16 ^ width) + n % 16 =
        16 ^ (width + 1) * value + n % 16 ^ (width + 1) := by
      rw [Nat.pow_succ', Nat.mod_mul, Nat.mul_add, Nat.mul_assoc]
      omega
    rw [hexDigits, List.append_assoc, List.singleton_append, hwidth, ih, readHexFrom?, hdigit,
      Option.bind_some, hvalue]

/-- The digits of a number that fits the width are read as the number. -/
theorem readHex?_hexDigits (letters : HexCase) {width n : Nat} (h : n < 16 ^ width)
    (rest : List Char) : readHex? width (hexDigits letters width n ++ rest) = some (n, rest) := by
  have hread := readHexFrom?_hexDigits letters 0 width n 0 rest
  rw [Nat.add_zero, Nat.mul_zero, Nat.zero_add, Nat.mod_eq_of_lt h] at hread
  exact hread

end EnumLabels.Text
