import EnumLabels.Proofs.Text.Trim
import EnumLabels.Scan.Line

/-!
# Telling lines apart

Whether a line is a case line or a filler line is a matter of what its trimmed text begins with.
A case line is never blank, since a keyword is not.
-/

namespace EnumLabels

namespace Line

variable {m : Markers} {line : Line}

/-- A filler line is blank or begins with the comment marker. -/
theorem isFiller_iff :
    line.isFiller m = true ↔ Text.trim line = [] ∨ m.commentMarker <+: Text.trim line := by
  simp [isFiller, isBlank]

/-- A case line begins with the keyword as a word of its own. -/
theorem isCase_iff :
    line.isCase m = true ↔
      m.keyword <+: Text.trim line ∧ leavesWord m.keyword (line.afterKeyword m) = true := by
  simp [isCase, opensWith, afterKeyword]

/-- A keyword is a word of its own at the end of a line. -/
theorem leavesWord_nil (keyword : List Char) : leavesWord keyword [] = true := by
  cases hlast : keyword.getLast? <;> simp [leavesWord, hlast]

/-- A character that is no part of a word leaves the keyword before it a word of its own. -/
theorem leavesWord_cons {c : Char} (h : Text.isWordChar c = false) (keyword rest : List Char) :
    leavesWord keyword (c :: rest) = true := by
  cases hlast : keyword.getLast? <;> simp [leavesWord, hlast, h]

/-- Whether a keyword is left a word of its own is seen from the first character behind it. -/
theorem leavesWord_append (keyword : List Char) {rest : List Char} (h : rest ≠ [])
    (more : List Char) : leavesWord keyword (rest ++ more) = leavesWord keyword rest := by
  obtain ⟨c, tail, rfl⟩ := List.exists_cons_of_ne_nil h
  cases hlast : keyword.getLast? <;> simp [leavesWord, hlast]

/-- What stands behind a character that is no part of a word does not matter to the keyword. -/
theorem leavesWord_append_cons {c : Char} (h : Text.isWordChar c = false)
    (keyword rest more : List Char) :
    leavesWord keyword (rest ++ c :: more) = leavesWord keyword rest := by
  by_cases hrest : rest = []
  · rw [hrest, List.nil_append, leavesWord_cons h, leavesWord_nil]
  · exact leavesWord_append keyword hrest _

/-- A line that starts with a keyword is not blank. -/
theorem trim_ne_nil_of_opensWith {keyword : List Char} (hkeyword : keyword ≠ [])
    (h : line.opensWith keyword = true) : Text.trim line ≠ [] := by
  intro hnil
  simp only [opensWith, hnil, Bool.and_eq_true, List.isPrefixOf_iff_prefix, List.prefix_nil] at h
  exact hkeyword h.1

/-- A case line is not blank. -/
theorem trim_ne_nil_of_isCase (h : line.isCase m = true) : Text.trim line ≠ [] :=
  trim_ne_nil_of_opensWith m.keyword_ne_nil h

/-- The keyword of a case line does not begin with a blank. -/
theorem isBlank_of_isCase (h : line.isCase m = true) {c : Char} {rest : List Char}
    (hkeyword : m.keyword = c :: rest) : Text.isBlank c = false := by
  obtain ⟨tail, htail⟩ := (isCase_iff.mp h).1
  rw [hkeyword] at htail
  exact Text.isBlank_of_trim_eq_cons htail.symm

end Line

end EnumLabels
