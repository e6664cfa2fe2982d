import EnumLabels.Text.CodeString
import Mathlib.Data.List.Lex

/-!
# Texts of characters

The code points of characters are no surrogates, so the text of the code points of characters is
the string of these characters. Texts of either kind are ordered by their code points.
-/

namespace EnumLabels.CodeString

/-- The code points of characters are those that are no surrogates. -/
theorem toNat_isValid (c : Char) : c.toNat < 0xD800 ∨ 0xDFFF < c.toNat ∧ c.toNat < 0x110000 :=
  c.valid

/-- No character is a surrogate. -/
theorem isSurrogate_toNat (c : Char) : isSurrogate c.toNat = false := by
  have hvalid := toNat_isValid c
  simp only [isSurrogate, Bool.and_eq_false_iff, decide_eq_false_iff_not]
  omega

/-- The text of the code points of characters is their string. -/
theorem ofPoints_toNat (text : List Char) :
    ofPoints (text.map Char.toNat) = chars (String.ofList text) := by
  have hnone : (text.map Char.toNat).any isSurrogate = false := by
    simp only [List.any_map, List.any_eq_false, Function.comp_apply, isSurrogate_toNat]
    simp
  have hchars : Char.ofNat ∘ Char.toNat = id := by
    funext c
    exact Char.ofNat_toNat c
  rw [ofPoints, hnone, List.map_map, hchars, List.map_id]
  rfl

/-- Characters are ordered by their code points. -/
theorem map_toNat_lt_iff {a b : List Char} : a.map Char.toNat < b.map Char.toNat ↔ a < b := by
  induction a generalizing b with
  | nil => cases b <;> simp
  | cons c a ih =>
    cases b with
    | nil => simp
    | cons d b =>
      rw [List.map_cons, List.map_cons, List.cons_lt_cons_iff, List.cons_lt_cons_iff, ih,
        Char.toNat_inj]
      rfl

/-- Texts are ordered by their code points. -/
theorem le_iff (s t : CodeString) : s.le t = true ↔ s.toPoints ≤ t.toPoints := by
  have hpoints : (!t.toPoints.lex s.toPoints Nat.blt) = true ↔ s.toPoints ≤ t.toPoints := by
    rw [← not_lt, Bool.not_eq_true', ← Bool.not_eq_true, List.lex_eq_true_iff_lex]
    simp only [Nat.blt_eq]
    rfl
  cases s with
  | chars s =>
    cases t with
    | chars t =>
      have hless := not_congr (@map_toNat_lt_iff t.toList s.toList)
      rw [not_lt] at hless
      rw [le, decide_eq_true_eq]
      exact hless.symm
    | points ps => exact hpoints
  | points ps => exact hpoints

/-- Sorted texts stand in the order of their code points. -/
theorem pairwise_sort (texts : List CodeString) :
    (sort texts).Pairwise fun s t => s.toPoints ≤ t.toPoints := by
  have htrans (a b c : CodeString) (hab : a.le b = true) (hbc : b.le c = true) :
      a.le c = true := by
    rw [le_iff] at hab hbc ⊢
    exact hab.trans hbc
  have htotal (a b : CodeString) : (a.le b || b.le a) = true := by
    rw [Bool.or_eq_true, le_iff, le_iff]
    exact le_total _ _
  exact (List.pairwise_mergeSort htrans htotal texts).imp fun {s t} h => (le_iff s t).mp h

end EnumLabels.CodeString
