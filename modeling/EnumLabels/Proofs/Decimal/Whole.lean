import EnumLabels.Decimal.Reading
import EnumLabels.Decimal.Whole
import Mathlib.Data.Nat.Basic

/-!
# Whole numbers are read back

The digits of a natural number have its value. There is at least one, and only the number zero
begins with the digit zero.
-/

namespace EnumLabels.Decimal

/-- The digits of a number have its value. -/
theorem natOfDigits_toDigits (n : Nat) : natOfDigits (Nat.toDigits 10 n) = n :=
  Nat.ofDigitChars_toDigits (by decide) (by decide)

/-- The digits of a number are decimal digits. -/
theorem isDigit_of_mem_toDigits {n : Nat} {c : Char} (h : c ∈ Nat.toDigits 10 n) :
    c.isDigit = true :=
  Nat.isDigit_of_mem_toDigits (by decide) (by decide) h

/-- A number begins with a digit. -/
theorem exists_toDigits_eq_cons (n : Nat) :
    ∃ d ds, Nat.toDigits 10 n = d :: ds ∧ d.isDigit = true := by
  obtain ⟨d, ds, hdigits⟩ := List.exists_cons_of_ne_nil (@Nat.toDigits_ne_nil n 10)
  have hmem : d ∈ Nat.toDigits 10 n := by
    rw [hdigits]
    exact List.mem_cons_self
  exact ⟨d, ds, hdigits, isDigit_of_mem_toDigits hmem⟩

/-- A whole number is a sign before its digits or its digits alone. -/
theorem exists_intText_eq (n : Int) :
    ∃ sign d ds, intText n = sign ++ d :: ds ∧ (sign = [] ∨ sign = ['-']) ∧
      d.isDigit = true := by
  obtain ⟨d, ds, hdigits, hdigit⟩ := exists_toDigits_eq_cons n.natAbs
  unfold intText
  split
  · exact ⟨['-'], d, ds, by rw [hdigits]; rfl, Or.inr rfl, hdigit⟩
  · exact ⟨[], d, ds, by rw [hdigits]; rfl, Or.inl rfl, hdigit⟩

/-- A number that begins with the digit zero is zero. -/
theorem eq_zero_of_toDigits_eq_cons {n : Nat} {rest : List Char}
    (h : Nat.toDigits 10 n = '0' :: rest) : n = 0 := by
  induction n using Nat.strongRecOn generalizing rest with
  | ind n ih =>
    rcases Nat.lt_or_ge n 10 with hlt | hge
    · rw [Nat.toDigits_of_lt_base hlt] at h
      exact Nat.digitChar_eq_zero.mp (List.cons.inj h).1
    · rw [Nat.toDigits_of_base_le (by decide) hge] at h
      obtain ⟨c, more, hmore⟩ := List.exists_cons_of_ne_nil (@Nat.toDigits_ne_nil (n / 10) 10)
      rw [hmore, List.cons_append] at h
      rw [(List.cons.inj h).1] at hmore
      have hzero := ih (n / 10) (by omega) hmore
      omega

end EnumLabels.Decimal
