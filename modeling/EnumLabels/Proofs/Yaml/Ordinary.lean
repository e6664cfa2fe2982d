import EnumLabels.Proofs.Text.Hex
import EnumLabels.Yaml.ScalarReader

/-!
# Ordinary text

Written text is made of printable ASCII and line feeds. Among these only the blank separates words
within a line, and only the line feed ends one. Such text is read as it stands.
-/

namespace EnumLabels.Yaml

/-- Ordinary characters are the line feed and printable ASCII. -/
theorem isOrdinary_iff {c : Char} :
    isOrdinary c = true ↔ c = '\n' ∨ 0x20 ≤ c.toNat ∧ c.toNat ≤ 0x7E := by
  simp only [isOrdinary, Bool.or_eq_true, beq_iff_eq, Bool.and_eq_true, decide_eq_true_eq]
  rfl

/-- An ordinary character is none of those that are neither line feeds nor printable ASCII. -/
theorem beq_eq_false_of_isOrdinary {c d : Char} (hc : isOrdinary c = true)
    (hd : isOrdinary d = false) : (c == d) = false := by
  rw [beq_eq_false_iff_ne]
  rintro rfl
  rw [hc] at hd
  contradiction

/-- The only ordinary character that separates words is the blank. -/
theorem isGap_of_isOrdinary {c : Char} (h : isOrdinary c = true) : isGap c = (c == ' ') := by
  rw [isGap, beq_eq_false_of_isOrdinary h (d := '\t') (by decide), Bool.or_false]

/-- The only ordinary character that ends a line is the line feed. -/
theorem isBreak_of_isOrdinary {c : Char} (h : isOrdinary c = true) : isBreak c = (c == '\n') := by
  rw [isBreak, beq_eq_false_of_isOrdinary h (d := '\x85') (by decide),
    beq_eq_false_of_isOrdinary h (d := '\u2028') (by decide),
    beq_eq_false_of_isOrdinary h (d := '\u2029') (by decide), Bool.or_false, Bool.or_false,
    Bool.or_false]

/-- Other ordinary characters do neither. -/
theorem isGap_isBreak_eq_false {c : Char} (h : isOrdinary c = true) (hblank : c ≠ ' ')
    (hfeed : c ≠ '\n') : isGap c = false ∧ isBreak c = false := by
  rw [isGap_of_isOrdinary h, isBreak_of_isOrdinary h]
  exact ⟨beq_eq_false_iff_ne.mpr hblank, beq_eq_false_iff_ne.mpr hfeed⟩

/-- A line that starts with a blank or a line feed is no document mark. -/
theorem isDocumentMark_cons_eq_false {c : Char} (h : c ≠ '-' ∧ c ≠ '.') (rest : List Char) :
    isDocumentMark (c :: rest) = false := by
  have hmark (d : Char) (hd : c ≠ d) : ((c :: rest).take 3 == [d, d, d]) = false := by
    rw [beq_eq_false_iff_ne, List.take_succ_cons]
    exact fun heq => hd (List.cons.inj heq).1
  rw [isDocumentMark, hmark '-' h.1, hmark '.' h.2]
  rfl

/-- An indented line is no document mark. -/
theorem isDocumentMark_indentation {indent : Nat} (hindent : 0 < indent) (rest : List Char) :
    isDocumentMark (List.replicate indent ' ' ++ rest) = false := by
  obtain ⟨count, rfl⟩ : ∃ count, indent = count + 1 := ⟨indent - 1, by omega⟩
  exact isDocumentMark_cons_eq_false (by decide) _

/-- An indentation is ordinary. -/
@[simp] theorem all_isOrdinary_replicate (count : Nat) :
    (List.replicate count ' ').all isOrdinary = true := by
  rw [List.all_replicate]
  split <;> rfl

/-- A line end with its indentation is ordinary. -/
@[simp] theorem all_isOrdinary_newline (indent : Nat) : (newline indent).all isOrdinary = true := by
  rw [newline, List.all_cons, all_isOrdinary_replicate]
  rfl

/-- Hexadecimal digits are ordinary. -/
theorem all_isOrdinary_hexDigits (width n : Nat) :
    (Text.hexDigits .upper width n).all isOrdinary = true := by
  have hdigit : ∀ n < 16, isOrdinary (Text.hexDigit .upper n) = true := by decide
  induction width generalizing n with
  | zero => rfl
  | succ width ih =>
    rw [Text.hexDigits, List.all_append, ih, List.all_cons, hdigit _ (Nat.mod_lt n (by decide))]
    rfl

/-- Ordinary text holds no other characters that end lines. -/
theorem normalizeBreaks_of_all_isOrdinary {text : List Char} (h : text.all isOrdinary = true) :
    normalizeBreaks text = text := by
  induction text with
  | nil => rfl
  | cons c text ih =>
    rw [List.all_cons, Bool.and_eq_true] at h
    have hreturn := beq_eq_false_iff_ne.mp (beq_eq_false_of_isOrdinary h.1 (d := '\r') (by decide))
    have hnext := beq_eq_false_iff_ne.mp (beq_eq_false_of_isOrdinary h.1 (d := '\x85') (by decide))
    rw [normalizeBreaks, if_neg hreturn, if_neg hnext, ih h.2]

/-- Ordinary text is read as it stands. -/
theorem prepare?_of_all_isOrdinary {text : List Char} (h : text.all isOrdinary = true) :
    prepare? text = some text := by
  have hallowed : text.all isAllowed = true := by
    rw [List.all_eq_true] at h ⊢
    intro c hc
    rcases isOrdinary_iff.mp (h c hc) with rfl | ⟨hfirst, hlast⟩
    · rfl
    · simp [isAllowed, hfirst, hlast]
  cases text with
  | nil => rfl
  | cons c rest =>
    have hfirst := (List.all_eq_true.mp h) c List.mem_cons_self
    have hmark := beq_eq_false_iff_ne.mp
      (beq_eq_false_of_isOrdinary hfirst (d := byteOrderMark) (by decide))
    rw [prepare?, if_pos hallowed, if_neg hmark, normalizeBreaks_of_all_isOrdinary h]

end EnumLabels.Yaml
