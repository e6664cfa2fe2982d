import EnumLabels.Json.Reader
import EnumLabels.Json.Writer
import EnumLabels.Proofs.Text.CodeString
import EnumLabels.Proofs.Text.Hex
import Mathlib.Tactic.SplitIfs

/-!
# Strings in JSON are read back

A character is written as itself, as a short escape, or as one or two escaped 16-bit units, and it
is read as its units in each case. A character is no surrogate, so only the two units of one
character are joined, and joining gives the characters of the string.
-/

namespace EnumLabels.Json

/-- No character is the first unit of a surrogate pair. -/
theorem isHigh_toNat (c : Char) : isHigh c.toNat = false := by
  have hvalid := CodeString.toNat_isValid c
  simp only [isHigh, Bool.and_eq_false_iff, decide_eq_false_iff_not]
  omega

/-- A text with the given units in front of those that are read from it. -/
def withUnits (ns : List Nat) (found : Option (List Nat × List Char)) :
    Option (List Nat × List Char) :=
  found.map fun r => (ns ++ r.1, r.2)

/-- An escaped unit is read as the unit. -/
theorem readUnits?_escapedUnit {n : Nat} (h : n < 0x10000) (rest : List Char) :
    readUnits? (escapedUnit n ++ rest) = withUnits [n] (readUnits? rest) := by
  obtain ⟨a, b, c, d, hdigits⟩ : ∃ a b c d, Text.hexDigits .lower 4 n = [a, b, c, d] :=
    ⟨_, _, _, _, rfl⟩
  have hread := @Text.readHex?_hexDigits .lower 4 n h []
  rw [List.append_nil, hdigits] at hread
  rw [escapedUnit, hdigits]
  simp only [List.cons_append, List.nil_append, readUnits?]
  simp only [hread, withUnits]
  cases readUnits? rest <;> rfl

/-- A short escape is read as the code point for which it stands. -/
theorem readUnits?_short {e : Char} {n : Nat} (he : e ≠ 'u') (h : escape? e = some n)
    (rest : List Char) : readUnits? ('\\' :: e :: rest) = withUnits [n] (readUnits? rest) := by
  have hread : readUnits? ('\\' :: e :: rest) =
      (escape? e).bind fun n => (readUnits? rest).bind fun r => some (n :: r.1, r.2) := by
    rw [readUnits?]
    · rfl
    · intro a b c d more heq
      exact absurd heq he
  rw [hread, h, Option.bind_some, withUnits]
  cases readUnits? rest <;> rfl

/-- A character that needs no escape is read as its code point. -/
theorem readUnits?_cons {c : Char} (hquote : c ≠ '"') (hescape : c ≠ '\\') (hcontrol : ' ' ≤ c)
    (rest : List Char) : readUnits? (c :: rest) = withUnits [c.toNat] (readUnits? rest) := by
  rw [readUnits?.eq_def]
  simp only [if_neg hquote, if_neg hescape, if_neg (Char.not_lt.mpr hcontrol), withUnits]
  cases readUnits? rest <;> rfl

/-- A code point below 65536 is one unit. -/
theorem units_of_lt {n : Nat} (h : n < 0x10000) : units n = [n] := if_pos h

/-- A code point from 65536 on is two units. -/
theorem units_of_le {n : Nat} (h : 0x10000 ≤ n) :
    units n = [0xD800 + (n - 0x10000) / 0x400, 0xDC00 + (n - 0x10000) % 0x400] :=
  if_neg (Nat.not_lt.mpr h)

/-- A written character is read as its units. -/
theorem readUnits?_writeChar (c : Char) (rest : List Char) :
    readUnits? (writeChar c ++ rest) = withUnits (units c.toNat) (readUnits? rest) := by
  unfold writeChar
  split_ifs with hquoted hfeed hreturn htab hback hform hprintable
  · rcases hquoted with rfl | rfl
    · exact readUnits?_short (by decide) rfl rest
    · exact readUnits?_short (by decide) rfl rest
  · subst hfeed
    exact readUnits?_short (by decide) rfl rest
  · subst hreturn
    exact readUnits?_short (by decide) rfl rest
  · subst htab
    exact readUnits?_short (by decide) rfl rest
  · subst hback
    exact readUnits?_short (by decide) rfl rest
  · subst hform
    exact readUnits?_short (by decide) rfl rest
  · -- the character stands for itself
    rw [not_or] at hquoted
    have hlast : c.toNat ≤ 126 := hprintable.2
    rw [units_of_lt (by omega)]
    exact readUnits?_cons hquoted.1 hquoted.2 hprintable.1 rest
  · -- the character is escaped
    have hvalid := CodeString.toNat_isValid c
    rcases Nat.lt_or_ge c.toNat 0x10000 with hlt | hge
    · rw [units_of_lt hlt, List.flatMap_singleton]
      exact readUnits?_escapedUnit hlt rest
    · rw [units_of_le hge, List.flatMap_cons, List.flatMap_singleton, List.append_assoc,
        readUnits?_escapedUnit (by omega), readUnits?_escapedUnit (by omega), withUnits, withUnits,
        withUnits, Option.map_map]
      rfl

/-- The written characters of a string are read as their units up to the closing quote. -/
theorem readUnits?_flatMap_writeChar (text rest : List Char) :
    readUnits? (text.flatMap writeChar ++ '"' :: rest) =
      some (text.flatMap fun c => units c.toNat, rest) := by
  induction text with
  | nil =>
    rw [List.flatMap_nil, List.nil_append, readUnits?.eq_def]
    rfl
  | cons c text ih =>
    rw [List.flatMap_cons, List.append_assoc, readUnits?_writeChar, ih, List.flatMap_cons]
    rfl

/-- A unit that is not the first one of a pair stands for itself. -/
theorem joinUnits_cons {n : Nat} (h : isHigh n = false) (rest : List Nat) :
    joinUnits (n :: rest) = n :: joinUnits rest := by
  cases rest with
  | nil => rfl
  | cons m rest => simp only [joinUnits, h, Bool.false_and, Bool.false_eq_true, if_false]

/-- The two units of a code point are joined to it. -/
theorem joinUnits_units_of_le {n : Nat} (h : 0x10000 ≤ n) (hlt : n < 0x110000) (rest : List Nat) :
    joinUnits (units n ++ rest) = n :: joinUnits rest := by
  have hpair : (isHigh (0xD800 + (n - 0x10000) / 0x400) &&
      isLow (0xDC00 + (n - 0x10000) % 0x400)) = true := by
    simp only [isHigh, isLow, Bool.and_eq_true, decide_eq_true_eq]
    omega
  have hvalue : 0x10000 + (0xD800 + (n - 0x10000) / 0x400 - 0xD800) * 0x400 +
      (0xDC00 + (n - 0x10000) % 0x400 - 0xDC00) = n := by
    omega
  rw [units_of_le h, List.cons_append, List.singleton_append, joinUnits, if_pos hpair, hvalue]

/-- The units of a character are joined to its code point. -/
theorem joinUnits_units (c : Char) (rest : List Nat) :
    joinUnits (units c.toNat ++ rest) = c.toNat :: joinUnits rest := by
  have hvalid := CodeString.toNat_isValid c
  rcases Nat.lt_or_ge c.toNat 0x10000 with hlt | hge
  · rw [units_of_lt hlt, List.singleton_append, joinUnits_cons (isHigh_toNat c)]
  · exact joinUnits_units_of_le hge (by omega) rest

/-- The units of a text are joined to its code points. -/
theorem joinUnits_flatMap_units (text : List Char) :
    joinUnits (text.flatMap fun c => units c.toNat) = text.map Char.toNat := by
  induction text with
  | nil => rfl
  | cons c text ih => rw [List.flatMap_cons, joinUnits_units, ih, List.map_cons]

/-- A written string is read back. -/
theorem readString?_writeString (s : String) (rest : List Char) :
    readString? (s.toList.flatMap writeChar ++ '"' :: rest) = some (CodeString.chars s, rest) := by
  simp only [readString?, readUnits?_flatMap_writeChar, Option.map_some, joinUnits_flatMap_units,
    CodeString.ofPoints_toNat, String.ofList_toList]

end EnumLabels.Json
