import EnumLabels.Proofs.Yaml.Ordinary
import Mathlib.Tactic.SplitIfs

/-!
# Places in written text

A place moves over text piece by piece. Behind a line end with its indentation stands the column
of the indentation, and within a line every ordinary character takes one column.
-/

namespace EnumLabels.Yaml.Cursor

variable (c : Cursor)

/-- Passing two texts one after the other passes both of them. -/
@[simp] theorem pass_pass (first second between rest : List Char) :
    (c.pass first between).pass second rest = c.pass (first ++ second) rest := by
  have hcolumn (column : Nat) :
      columnAfter (columnAfter column first) second = columnAfter column (first ++ second) := by
    induction first generalizing column with
    | nil => rfl
    | cons d first ih =>
      rw [List.cons_append, columnAfter, columnAfter]
      split_ifs <;> exact ih _
  simp only [pass, hcolumn, List.length_append, List.countP_append, Nat.add_assoc]

/-- Passing nothing stays. -/
@[simp] theorem pass_nil : c.pass [] c.rest = c := rfl

@[simp] theorem pass_rest (passed rest : List Char) : (c.pass passed rest).rest = rest := rfl

variable {c}

/-- The way to what is left of a text passes what lies before it. -/
theorem moveTo_eq {passed rest : List Char} (h : c.rest = passed ++ rest) :
    c.moveTo rest = c.pass passed rest := by
  rw [moveTo, h, List.length_append, Nat.add_sub_cancel, List.take_left]

/-- Going on by the length of a text passes the text. -/
theorem advance_eq (passed : List Char) {rest : List Char} (h : c.rest = passed ++ rest) :
    c.advance passed.length = c.pass passed rest := by
  rw [advance, h, List.take_left, List.drop_left]

/-- Within a line every ordinary character takes one column. -/
theorem column_pass {passed : List Char} (hordinary : passed.all isOrdinary = true)
    (hline : '\n' ∉ passed) (rest : List Char) :
    (c.pass passed rest).column = c.column + passed.length := by
  change columnAfter c.column passed = _
  generalize c.column = column
  induction passed generalizing column with
  | nil => rfl
  | cons d passed ih =>
    rw [List.all_cons, Bool.and_eq_true] at hordinary
    rw [List.mem_cons, not_or] at hline
    have hbreak : isBreak d = false := by
      rw [isBreak_of_isOrdinary hordinary.1, beq_eq_false_iff_ne]
      exact (Ne.symm hline.1)
    have hmark := beq_eq_false_iff_ne.mp
      (beq_eq_false_of_isOrdinary hordinary.1 (d := byteOrderMark) (by decide))
    rw [columnAfter, hbreak, if_neg Bool.false_ne_true, if_neg hmark, ih hordinary.2 hline.2,
      List.length_cons]
    omega

/-- Behind a line end stands the column of its indentation. -/
@[simp] theorem column_pass_newline (passed : List Char) (indent : Nat) (rest : List Char) :
    (c.pass (passed ++ newline indent) rest).column = indent := by
  have hindentation : '\n' ∉ List.replicate indent ' ' := by simp
  have hcolumn := column_pass (c := c.pass (passed ++ ['\n']) []) (all_isOrdinary_replicate indent)
    hindentation rest
  have hzero : (c.pass (passed ++ ['\n']) []).column = 0 := by
    rw [← pass_pass c passed ['\n'] []]
    rfl
  rw [pass_pass, List.append_assoc, List.singleton_append, hzero, List.length_replicate,
    Nat.zero_add] at hcolumn
  exact hcolumn

/-- Within a line the line does not change. -/
theorem line_pass {passed : List Char} (hordinary : passed.all isOrdinary = true)
    (hline : '\n' ∉ passed) (rest : List Char) : (c.pass passed rest).line = c.line := by
  have hnone : passed.countP isBreak = 0 := by
    rw [List.countP_eq_zero]
    intro d hd
    rw [isBreak_of_isOrdinary (List.all_eq_true.mp hordinary d hd), beq_iff_eq]
    rintro rfl
    exact hline hd
  rw [pass, hnone, Nat.add_zero]

/-- A line end leads to a later line. -/
theorem line_lt_pass_newline (passed : List Char) (indent : Nat) (rest : List Char) :
    c.line < (c.pass (passed ++ newline indent) rest).line := by
  have hbreak : isBreak '\n' = true := rfl
  change c.line < c.line + List.countP isBreak (passed ++ newline indent)
  rw [List.countP_append, newline, List.countP_cons_of_pos hbreak]
  omega

end EnumLabels.Yaml.Cursor
