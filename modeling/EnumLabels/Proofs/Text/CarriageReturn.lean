import EnumLabels.Proofs.Text.Lines
import EnumLabels.Proofs.Text.Trim
import Mathlib.Data.List.Forall2

/-!
# Lines that end with a carriage return

Only line feeds end lines. A carriage return before a line feed therefore stays at the end of its
line, and trimming takes it away.
-/

namespace EnumLabels.Text

/-- The text with a carriage return before every line feed. -/
def withReturns : List Char → List Char
  | [] => []
  | c :: rest => if c = '\n' then '\r' :: '\n' :: withReturns rest else c :: withReturns rest

/-- With carriage returns before the line feeds, every line is as before or ends with one more
carriage return. -/
theorem lines_withReturns (text : List Char) :
    List.Forall₂ (fun long short => long = short ∨ long = short ++ ['\r'])
      (lines (withReturns text)) (lines text) := by
  induction text with
  | nil => exact .cons (.inl rfl) .nil
  | cons c rest ih =>
    by_cases hc : c = '\n'
    · subst hc
      have hlines : lines (withReturns ('\n' :: rest)) = ['\r'] :: lines (withReturns rest) :=
        lines_cons (by decide) (lines_lineFeed_cons _)
      rw [hlines, lines_lineFeed_cons]
      exact .cons (.inr rfl) ih
    · obtain ⟨long, longs, hlong⟩ := exists_lines_eq_cons (withReturns rest)
      obtain ⟨short, shorts, hshort⟩ := exists_lines_eq_cons rest
      rw [hlong, hshort] at ih
      cases ih with
      | cons hfirst hmore =>
        rw [withReturns, if_neg hc, lines_cons hc hlong, lines_cons hc hshort]
        refine .cons ?_ hmore
        rcases hfirst with rfl | rfl
        · exact .inl rfl
        · exact .inr rfl

/-- Carriage returns before the line feeds make no difference to the trimmed lines. -/
theorem forall₂_trim_lines_withReturns (text : List Char) :
    List.Forall₂ (fun long short => trim long = trim short) (lines (withReturns text))
      (lines text) := by
  refine (lines_withReturns text).imp fun long short h => ?_
  rcases h with rfl | rfl
  · rfl
  · exact trim_append_tail (by simp; decide) short

end EnumLabels.Text
