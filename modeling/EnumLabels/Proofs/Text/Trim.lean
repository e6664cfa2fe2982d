import EnumLabels.Text.Blank
import Mathlib.Data.List.TakeWhile

/-!
# What trimming leaves

Trimming takes blanks from the two ends of a text and stops at the first character from either
side that is not blank. What it leaves is empty or begins with such a character, and trimming once
more leaves it as it is.
-/

namespace EnumLabels.Text

/-- Leading blanks make no difference to what follows them. -/
theorem trimStart_append {lead : List Char} (h : ∀ c ∈ lead, isBlank c = true)
    (text : List Char) : trimStart (lead ++ text) = trimStart text :=
  List.dropWhile_append_of_pos h

/-- Trimming at the start stops at a character that is not blank. -/
theorem trimStart_cons {c : Char} (h : isBlank c = false) (text : List Char) :
    trimStart (c :: text) = c :: text := by
  simp [trimStart, h]

/-- Trimming at the end stops at a character that is not blank. -/
theorem trimEnd_append_cons {c : Char} (h : isBlank c = false) (text more : List Char) :
    trimEnd (text ++ c :: more) = text ++ c :: trimEnd more := by
  have hstop : (more.reverse ++ c :: text.reverse).dropWhile isBlank =
      more.reverse.dropWhile isBlank ++ c :: text.reverse := by
    rw [List.dropWhile_append]
    split
    · next hempty =>
      rw [List.isEmpty_iff.mp hempty]
      simp [h]
    · rfl
  simp [trimEnd, hstop]

/-- Trimming at the end leaves characters in a row that are not blank, and all in front of them. -/
theorem trimEnd_append_solid {solid : List Char} (hne : solid ≠ [])
    (h : ∀ c ∈ solid, isBlank c = false) (text more : List Char) :
    trimEnd (text ++ (solid ++ more)) = text ++ (solid ++ trimEnd more) := by
  obtain ⟨front, c, rfl⟩ : ∃ front c, solid = front ++ [c] :=
    ⟨_, _, (List.dropLast_concat_getLast hne).symm⟩
  have hend := trimEnd_append_cons (h c (by simp)) (text ++ front) more
  simpa using hend

/-- Trimming at the end leaves the beginning of a text. -/
theorem trimEnd_prefix (text : List Char) : trimEnd text <+: text := by
  rw [← List.reverse_suffix, trimEnd, List.reverse_reverse]
  exact List.dropWhile_suffix isBlank

/-- Leading blanks make no difference to what trimming leaves. -/
theorem trim_append {lead : List Char} (h : ∀ c ∈ lead, isBlank c = true) (text : List Char) :
    trim (lead ++ text) = trim text := by
  rw [trim, trimStart_append h, trim]

/-- Trailing blanks make no difference to what precedes them. -/
theorem trimEnd_append {tail : List Char} (h : ∀ c ∈ tail, isBlank c = true) (text : List Char) :
    trimEnd (text ++ tail) = trimEnd text := by
  rw [trimEnd, List.reverse_append, List.dropWhile_append_of_pos (by simpa using h), trimEnd]

/-- Trailing blanks make no difference to what trimming leaves. -/
theorem trim_append_tail {tail : List Char} (h : ∀ c ∈ tail, isBlank c = true)
    (text : List Char) : trim (text ++ tail) = trim text := by
  rw [trim, trimStart, List.dropWhile_append]
  split
  · next hempty =>
    have htail : tail.dropWhile isBlank = [] := List.dropWhile_eq_nil_iff.mpr h
    rw [htail, trim, trimStart, List.isEmpty_iff.mp hempty]
  · exact trimEnd_append h _

/-- What trimming takes away are blanks at the two ends. -/
theorem exists_eq_append_trim (text : List Char) :
    ∃ lead tail, text = lead ++ (trim text ++ tail) ∧ (∀ c ∈ lead, isBlank c = true) ∧
      ∀ c ∈ tail, isBlank c = true := by
  refine ⟨text.takeWhile isBlank, ((trimStart text).reverse.takeWhile isBlank).reverse, ?_, ?_, ?_⟩
  · have hstart : trim text ++ ((trimStart text).reverse.takeWhile isBlank).reverse =
        trimStart text := by
      rw [trim, trimEnd, ← List.reverse_append, List.takeWhile_append_dropWhile,
        List.reverse_reverse]
    rw [hstart, trimStart, List.takeWhile_append_dropWhile]
  · exact fun c hc => List.mem_takeWhile_imp hc
  · exact fun c hc => List.mem_takeWhile_imp (List.mem_reverse.mp hc)

/-- Trimming a trimmed text leaves it as it is. -/
@[simp] theorem trim_trim (text : List Char) : trim (trim text) = trim text := by
  obtain ⟨lead, tail, htext, hlead, htail⟩ := exists_eq_append_trim text
  have htrim := congrArg trim htext
  rw [trim_append hlead, trim_append_tail htail] at htrim
  exact htrim.symm

/-- What trimming leaves of a text that does not begin with a blank begins as the text does. -/
theorem trim_cons {c : Char} (h : isBlank c = false) (text : List Char) :
    trim (c :: text) = c :: trimEnd text := by
  rw [trim, trimStart_cons h]
  exact trimEnd_append_cons h [] text

/-- Trimming leaves characters in a row that are not blank at the beginning of a text. -/
theorem trim_solid_append {solid : List Char} (hne : solid ≠ [])
    (h : ∀ c ∈ solid, isBlank c = false) (more : List Char) :
    trim (solid ++ more) = solid ++ trimEnd more := by
  obtain ⟨c, rest, rfl⟩ := List.exists_cons_of_ne_nil hne
  rw [trim, List.cons_append, trimStart_cons (h c List.mem_cons_self)]
  exact trimEnd_append_solid hne h [] more

/-- A trimmed text does not begin with a blank. -/
theorem isBlank_of_trim_eq_cons {text rest : List Char} {c : Char} (h : trim text = c :: rest) :
    isBlank c = false := by
  cases hstart : trimStart text with
  | nil => simp [trim, hstart, trimEnd] at h
  | cons d more =>
    have hd : isBlank d = false := by
      have hhead := List.head?_dropWhile_not isBlank text
      rw [show text.dropWhile isBlank = d :: more from hstart] at hhead
      simpa using hhead
    have htrim : trim text = d :: trimEnd more := by
      rw [trim, hstart]
      exact trimEnd_append_cons hd [] more
    obtain ⟨rfl, -⟩ := List.cons.inj (htrim.symm.trans h)
    exact hd

end EnumLabels.Text
