import EnumLabels.Proofs.Text.Words

/-!
# Lines and the text that they make up

A text is its lines joined by line feeds, whatever other characters stand before them.
-/

namespace EnumLabels.Text

/-- A character that ends no line stands in front of the first line. -/
theorem lines_cons {c : Char} (h : c ≠ '\n') {rest line : List Char} {more : List (List Char)}
    (hrest : lines rest = line :: more) : lines (c :: rest) = (c :: line) :: more := by
  have hc : (c == '\n') = false := by simpa using h
  rw [lines] at hrest ⊢
  simp only [splitWhere, hc, hrest, Bool.false_eq_true, if_false]

/-- A line feed ends an empty line in front of the others. -/
theorem lines_lineFeed_cons (rest : List Char) : lines ('\n' :: rest) = [] :: lines rest := rfl

/-- A text has a first line. -/
theorem exists_lines_eq_cons (text : List Char) : ∃ line more, lines text = line :: more :=
  List.exists_cons_of_ne_nil (splitWhere_ne_nil _ text)

/-- No line holds a line feed. -/
theorem lineFeed_notMem_of_mem_lines {text line : List Char} (h : line ∈ lines text) :
    '\n' ∉ line := by
  induction text generalizing line with
  | nil =>
    obtain rfl := List.mem_singleton.mp h
    simp
  | cons c rest ih =>
    obtain ⟨first, more, hrest⟩ := exists_lines_eq_cons rest
    have hlines : ∀ line ∈ first :: more, '\n' ∉ line := fun line hline => ih (hrest ▸ hline)
    by_cases hc : c = '\n'
    · subst hc
      rw [lines_lineFeed_cons, hrest, List.mem_cons] at h
      rcases h with rfl | h
      · simp
      · exact hlines line h
    · rw [lines_cons hc hrest, List.mem_cons] at h
      obtain ⟨hfirst, hmore⟩ := List.forall_mem_cons.mp hlines
      rcases h with rfl | h
      · simp [hfirst, Ne.symm hc]
      · exact hmore line h

/-- The lines of a text make it up. -/
theorem unlines_lines (text : List Char) : unlines (lines text) = text := by
  induction text with
  | nil => rfl
  | cons c rest ih =>
    obtain ⟨line, more, hrest⟩ := exists_lines_eq_cons rest
    rw [hrest] at ih
    by_cases hc : c = '\n'
    · subst hc
      rw [lines_lineFeed_cons, hrest]
      change [] ++ '\n' :: unlines (line :: more) = _
      rw [ih, List.nil_append]
    · rw [lines_cons hc hrest]
      cases more with
      | nil => exact congrArg _ ih
      | cons next more => exact congrArg _ ih

end EnumLabels.Text
