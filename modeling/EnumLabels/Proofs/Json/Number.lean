import EnumLabels.Json.Reader
import EnumLabels.Proofs.Decimal.Whole

/-!
# Whole numbers in JSON are read back

A whole number ends where a comma, a closing bracket or brace or the end of the text follows it.
More digits, a point or an exponent would belong to it.
-/

namespace EnumLabels.Json

/-- What may follow a value: nothing, a comma, or a closing bracket or brace. -/
def EndsValue (rest : List Char) : Prop := ∀ c ∈ rest.head?, c = ',' ∨ c = ']' ∨ c = '}'

/-- A value may end with the text. -/
theorem EndsValue.nil : EndsValue [] := by simp [EndsValue]

/-- A value may end before a comma or a closing bracket or brace. -/
theorem EndsValue.cons {c : Char} (h : c = ',' ∨ c = ']' ∨ c = '}') (rest : List Char) :
    EndsValue (c :: rest) := by
  simpa [EndsValue] using h

section Numbers

variable {rest : List Char} (hrest : EndsValue rest)
include hrest

/-- No digit belongs to a number that has ended. -/
theorem EndsValue.takeWhile_isDigit : rest.takeWhile Char.isDigit = [] := by
  cases rest with
  | nil => rfl
  | cons c more =>
    rcases hrest c rfl with rfl | rfl | rfl <;> rfl

/-- A number that has ended has no fraction. -/
theorem EndsValue.readFraction_eq : readFraction rest = ([], rest) := by
  cases rest with
  | nil => rfl
  | cons c more =>
    rcases hrest c rfl with rfl | rfl | rfl <;> rfl

/-- A number that has ended has no exponent. -/
theorem EndsValue.readExponent_eq : readExponent rest = (none, rest) := by
  cases rest with
  | nil => rfl
  | cons c more =>
    rcases hrest c rfl with rfl | rfl | rfl <;> rfl

/-- The digits of a number are read as the number. -/
theorem readUnsigned?_toDigits (negative : Bool) (n : Nat) :
    readUnsigned? negative (Nat.toDigits 10 n ++ rest) =
      some (.int (if negative then -n else n), rest) := by
  obtain ⟨d, ds, hdigits, -⟩ := Decimal.exists_toDigits_eq_cons n
  have hsome : (Nat.toDigits 10 n).isEmpty = false := by rw [hdigits]; rfl
  unfold readUnsigned?
  extract_lets whole
  have hwhole : whole = Nat.toDigits 10 n := by
    unfold whole
    split
    · -- a leading zero stands alone
      next more heq =>
      rw [hdigits, List.cons_append] at heq
      rw [(List.cons.inj heq).1] at hdigits
      rw [Decimal.eq_zero_of_toDigits_eq_cons hdigits]
      rfl
    · rw [List.takeWhile_append_of_pos fun _ => Decimal.isDigit_of_mem_toDigits,
        hrest.takeWhile_isDigit, List.append_nil]
  simp only [hwhole, hsome, List.drop_left, hrest.readFraction_eq, hrest.readExponent_eq,
    List.append_nil, Decimal.natOfDigits_toDigits, List.isEmpty_nil, Option.isNone_none,
    Bool.and_self, Bool.false_eq_true, if_false, if_true]

end Numbers

/-- A digit is no other character. -/
theorem ne_of_isDigit {c d : Char} (hd : d.isDigit = true) (hc : c.isDigit = false) : c ≠ d := by
  rintro rfl
  rw [hc] at hd
  contradiction

/-- A text that begins with a digit is read as a number without a sign. -/
theorem readScalar?_digit {d : Char} (h : d.isDigit = true) (more : List Char) :
    readScalar? (d :: more) = readUnsigned? false (d :: more) := by
  have hnone : (words.find? fun w => w.1.isPrefixOf (d :: more)) = none := by
    rw [List.find?_eq_none]
    simp (disch := decide) [words, ne_of_isDigit h]
  unfold readScalar?
  rw [hnone]
  dsimp only
  split
  · next rest heq =>
    exact absurd (List.cons.inj heq).1.symm (ne_of_isDigit h rfl)
  · rfl

/-- A text that begins with a minus sign and a digit is read as a negative number. -/
theorem readScalar?_minus {d : Char} (h : d.isDigit = true) (more : List Char) :
    readScalar? ('-' :: d :: more) = readUnsigned? true (d :: more) := by
  have hnone : (words.find? fun w => w.1.isPrefixOf ('-' :: d :: more)) = none := by
    rw [List.find?_eq_none]
    simp (disch := decide) [words, ne_of_isDigit h]
  unfold readScalar?
  rw [hnone]
  rfl

/-- A whole number is read behind its sign, which only a negative one has. -/
theorem readScalar?_intText (n : Int) {rest : List Char} (hrest : EndsValue rest) :
    readScalar? (Decimal.intText n ++ rest) = some (.int n, rest) := by
  obtain ⟨d, ds, hdigits, hdigit⟩ := Decimal.exists_toDigits_eq_cons n.natAbs
  unfold Decimal.intText
  split_ifs with hn
  · have hvalue : -(n.natAbs : Int) = n := by omega
    have hread := readUnsigned?_toDigits hrest true n.natAbs
    rw [hdigits, List.cons_append, if_pos rfl, hvalue] at hread
    rw [hdigits, List.cons_append, List.cons_append, readScalar?_minus hdigit, hread]
  · have hvalue : (n.natAbs : Int) = n := by omega
    have hread := readUnsigned?_toDigits hrest false n.natAbs
    rw [hdigits, List.cons_append, if_neg Bool.false_ne_true, hvalue] at hread
    rw [hdigits, List.cons_append, readScalar?_digit hdigit, hread]

end EnumLabels.Json
