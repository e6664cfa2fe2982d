import EnumLabels.Text.Split
import Mathlib.Data.List.Infix

/-!
# The part of a text before a marker

A text is cut where a marker occurs in it for the first time. A marker that the text does not hold
leaves all of it, and one that is put behind the text is the first one there. A character that the
marker does not hold parts its occurrences: each of them lies on one of the two sides.
-/

namespace EnumLabels.Text

variable {marker text : List Char}

/-- A marker that begins a text and does not hold one of its characters ends before that one. -/
theorem prefix_append_cons_iff {c : Char} (hc : c ∉ marker) (text more : List Char) :
    marker <+: text ++ c :: more ↔ marker <+: text := by
  constructor
  · intro h
    rcases List.prefix_or_prefix_of_prefix h (List.prefix_append text _) with hshort | ⟨rest, rfl⟩
    · exact hshort
    · rw [List.prefix_append_right_inj] at h
      cases rest with
      | nil => exact (List.append_nil text).symm ▸ List.prefix_refl text
      | cons d rest =>
        obtain ⟨rfl, -⟩ := List.cons_prefix_cons.mp h
        simp at hc
  · intro h
    exact h.trans (List.prefix_append text _)

/-- A character that does not begin the marker stands before its first occurrence. -/
theorem before_cons_of_head_ne {c : Char} (hc : marker.head? ≠ some c) (hne : marker ≠ [])
    (rest : List Char) : before marker (c :: rest) = c :: before marker rest := by
  obtain ⟨d, tail, rfl⟩ := List.exists_cons_of_ne_nil hne
  have hd : d ≠ c := by simpa using hc
  rw [before, if_neg (by simp [hd])]

/-- Characters that do not begin the marker stand before its first occurrence. -/
theorem before_append_of_head_ne (hne : marker ≠ []) (htext : ∀ c ∈ text, marker.head? ≠ some c)
    (more : List Char) : before marker (text ++ more) = text ++ before marker more := by
  induction text with
  | nil => rfl
  | cons c rest ih =>
    obtain ⟨hc, hrest⟩ := List.forall_mem_cons.mp htext
    rw [List.cons_append, before_cons_of_head_ne hc hne, ih hrest, List.cons_append]

/-- A marker leaves all of a text that does not hold it. -/
theorem before_eq_self (h : ¬ marker <:+: text) : before marker text = text := by
  induction text with
  | nil => rfl
  | cons c rest ih =>
    rw [List.infix_cons_iff, not_or] at h
    rw [before, if_neg (by simpa using h.1), ih h.2]

/-- Nothing of a text stands before a marker with which it begins. -/
theorem before_eq_nil (h : marker <+: text) : before marker text = [] := by
  cases text with
  | nil => rfl
  | cons c rest => rw [before, if_pos (by simpa using h)]

/-- A marker in a text that ends before a character which it does not hold is found there, and one
that is not in it is found behind it. -/
theorem before_append_cons {c : Char} (hne : marker ≠ []) (hc : c ∉ marker)
    (text more : List Char) :
    before marker (text ++ c :: more) =
      if marker <:+: text then before marker text else text ++ before marker (c :: more) := by
  induction text with
  | nil => simp [hne]
  | cons d rest ih =>
    by_cases hbegins : marker <+: d :: rest
    · have hlonger : marker <+: d :: rest ++ c :: more := hbegins.trans (List.prefix_append _ _)
      rw [if_pos hbegins.isInfix, before_eq_nil hbegins, before_eq_nil hlonger]
    · have hlonger : ¬ marker <+: d :: (rest ++ c :: more) := by
        rwa [← List.cons_append, prefix_append_cons_iff hc]
      simp only [List.cons_append, before, List.isPrefixOf_iff_prefix, hlonger, hbegins, if_false,
        ih, List.infix_cons_iff, false_or]
      split <;> rfl

/-- A text goes on with the marker behind the part before it, unless that part is all of it. -/
theorem exists_eq_before_append (marker text : List Char) :
    before marker text = text ∨ ∃ more, text = before marker text ++ (marker ++ more) := by
  induction text with
  | nil => exact .inl rfl
  | cons c rest ih =>
    rw [before]
    split
    · next hbegins =>
      obtain ⟨more, hmore⟩ := List.isPrefixOf_iff_prefix.mp hbegins
      exact .inr ⟨more, hmore.symm⟩
    · rcases ih with hall | ⟨more, hmore⟩
      · exact .inl (congrArg _ hall)
      · exact .inr ⟨more, congrArg (c :: ·) hmore⟩

/-- The part before a marker begins the text. -/
theorem prefix_before (marker text : List Char) : before marker text <+: text := by
  rcases exists_eq_before_append marker text with hall | ⟨more, hmore⟩
  · rw [hall]
  · exact ⟨marker ++ more, hmore.symm⟩

/-- A text contains a marker if the marker is a part of it. -/
theorem contains_iff : contains marker text = true ↔ marker <:+: text := by
  induction text with
  | nil => simp [contains]
  | cons c rest ih => simp [contains, ih, List.infix_cons_iff]

/-- A marker that does not hold a character of a text is a part of what stands before it or of what
stands behind it. -/
theorem infix_append_cons_iff {c : Char} (hc : c ∉ marker) (text more : List Char) :
    marker <:+: text ++ c :: more ↔ marker <:+: text ∨ marker <:+: more := by
  induction text with
  | nil =>
    have hempty : marker <+: c :: more ↔ marker = [] := by
      rw [← List.prefix_nil, ← prefix_append_cons_iff hc [] more, List.nil_append]
    rw [List.nil_append, List.infix_cons_iff, hempty, List.infix_nil]
  | cons d rest ih =>
    rw [List.cons_append, List.infix_cons_iff, List.infix_cons_iff, ih, ← List.cons_append,
      prefix_append_cons_iff hc, or_assoc]

/-- A marker occurs in a text behind a part, and nowhere behind a shorter one. -/
structure IsFirstOccurrence (marker text front : List Char) : Prop where
  occurs : front ++ marker <+: text
  first : ∀ other, other ++ marker <+: text → front.length ≤ other.length

/-- A marker occurs first behind the part before it. -/
theorem isFirstOccurrence_before (h : marker <:+: text) :
    IsFirstOccurrence marker text (before marker text) := by
  induction text with
  | nil =>
    obtain rfl := List.infix_nil.mp h
    exact ⟨List.prefix_refl [], by simp [before]⟩
  | cons c rest ih =>
    by_cases hbegins : marker <+: c :: rest
    · rw [before_eq_nil hbegins]
      exact ⟨hbegins, fun other _ => Nat.zero_le _⟩
    · have hrest := ih ((List.infix_cons_iff.mp h).resolve_left hbegins)
      rw [before, if_neg (by simpa using hbegins)]
      refine ⟨List.cons_prefix_cons.mpr ⟨rfl, hrest.occurs⟩, fun other hother => ?_⟩
      cases other with
      | nil => exact absurd hother hbegins
      | cons d other =>
        exact Nat.succ_le_succ (hrest.first other (List.cons_prefix_cons.mp hother).2)

end EnumLabels.Text
