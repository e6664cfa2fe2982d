import EnumLabels.Proofs.Report.Accounts
import EnumLabels.Proofs.Report.Groups
import EnumLabels.Proofs.Text.Marker

/-!
# Lines that declare several cases

A comma outside all round brackets separates cases, and one within brackets belongs to the values of
a case. A report takes each comma for a separator that is left once the innermost groups are
removed. In a line with balanced brackets every comma outside of them is left, and so is one in a
group that holds another group. The report agrees with the meaning of the line unless commas are left
and all of them are of the second kind, for which two levels of brackets are needed.
-/

namespace EnumLabels

namespace Line

/-- The number of open brackets of a text less the number of its close brackets. -/
def bracketDepth (text : List Char) : Int := (text.count '(' : Int) - text.count ')'

/-- A text that closes each bracket which it opens and no other one. -/
structure HasBalancedBrackets (text : List Char) : Prop where
  nonneg : ∀ part, part <+: text → 0 ≤ bracketDepth part
  total : bracketDepth text = 0

/-- A comma that stands outside all brackets. -/
def HasOuterComma (text : List Char) : Prop :=
  ∃ front back, text = front ++ ',' :: back ∧ bracketDepth front = 0

/-- A comma in brackets, the closest of which hold another bracket. -/
def HasNestedComma (text : List Char) : Prop :=
  ∃ front back, text = front ++ ',' :: back ∧ 0 < bracketDepth front ∧ ¬ InGroup front back

/-- The depths of consecutive texts add up. -/
theorem bracketDepth_append (text more : List Char) :
    bracketDepth (text ++ more) = bracketDepth text + bracketDepth more := by
  simp only [bracketDepth, List.count_append]
  omega

/-- An open bracket counts one. -/
theorem bracketDepth_open_cons (text : List Char) :
    bracketDepth ('(' :: text) = 1 + bracketDepth text := by
  simp [bracketDepth]
  omega

/-- A close bracket counts minus one. -/
theorem bracketDepth_close_cons (text : List Char) :
    bracketDepth (')' :: text) = bracketDepth text - 1 := by
  simp [bracketDepth]
  omega

/-- A comma does not count. -/
theorem bracketDepth_comma_cons (text : List Char) :
    bracketDepth (',' :: text) = bracketDepth text := by
  simp [bracketDepth]

/-- A text without brackets has depth zero. -/
theorem IsFlat.bracketDepth_eq_zero {text : List Char} (h : IsFlat text) :
    bracketDepth text = 0 := by
  have hopen : '(' ∉ text := fun hmem => (h _ hmem).1 rfl
  have hclose : ')' ∉ text := fun hmem => (h _ hmem).2 rfl
  simp [bracketDepth, List.count_eq_zero_of_not_mem, hopen, hclose]

/-- A text has no brackets or a first one. -/
theorem isFlat_or_exists_first (text : List Char) :
    IsFlat text ∨ ∃ inner after, IsFlat inner ∧
      (text = inner ++ '(' :: after ∨ text = inner ++ ')' :: after) := by
  induction text with
  | nil => exact .inl (by simp [IsFlat])
  | cons c rest ih =>
    by_cases hopen : c = '('
    · exact .inr ⟨[], rest, by simp [IsFlat], .inl (by rw [hopen, List.nil_append])⟩
    by_cases hclose : c = ')'
    · exact .inr ⟨[], rest, by simp [IsFlat], .inr (by rw [hclose, List.nil_append])⟩
    rcases ih with hflat | ⟨inner, after, hinner, hrest⟩
    · exact .inl (List.forall_mem_cons.mpr ⟨⟨hopen, hclose⟩, hflat⟩)
    · refine .inr ⟨c :: inner, after, List.forall_mem_cons.mpr ⟨⟨hopen, hclose⟩, hinner⟩, ?_⟩
      simpa using hrest

/-- A text has no brackets or a last one. -/
theorem isFlat_or_exists_last (text : List Char) :
    IsFlat text ∨ ∃ outer inner, IsFlat inner ∧
      (text = outer ++ '(' :: inner ∨ text = outer ++ ')' :: inner) := by
  rcases isFlat_or_exists_first text.reverse with hflat | ⟨inner, after, hinner, htext⟩
  · exact .inl fun c hc => hflat c (List.mem_reverse.mpr hc)
  · refine .inr ⟨after.reverse, inner.reverse, fun c hc => hinner c (List.mem_reverse.mp hc), ?_⟩
    simpa [List.reverse_eq_iff] using htext

/-- A place in a text that opens a group has a positive depth, if no part before it has a negative
one. -/
theorem OpensGroup.bracketDepth_pos {front : List Char} (h : OpensGroup front)
    (hnonneg : ∀ part, part <+: front → 0 ≤ bracketDepth part) : 0 < bracketDepth front := by
  obtain ⟨outer, inner, hinner, rfl⟩ := h
  have houter := hnonneg outer (List.prefix_append outer _)
  rw [bracketDepth_append, bracketDepth_open_cons, hinner.bracketDepth_eq_zero]
  omega

namespace HasBalancedBrackets

variable {text : List Char} (h : HasBalancedBrackets text)
include h

/-- In a text with balanced brackets a comma is left exactly if it is outside of them or the closest
ones hold another bracket. -/
theorem mem_withoutGroups_iff :
    ',' ∈ withoutGroups text ↔ HasOuterComma text ∨ HasNestedComma text := by
  rw [Line.mem_withoutGroups_iff]
  constructor
  · rintro ⟨front, back, rfl, hleft⟩
    have hdepth := h.nonneg front (List.prefix_append front _)
    rcases Int.lt_or_eq_of_le hdepth with hpos | hzero
    · exact .inr ⟨front, back, rfl, hpos, hleft⟩
    · exact .inl ⟨front, back, rfl, hzero.symm⟩
  · rintro (⟨front, back, rfl, hzero⟩ | ⟨front, back, rfl, -, hleft⟩)
    · refine ⟨front, back, rfl, fun hin => ?_⟩
      have hpos := hin.1.bracketDepth_pos fun part hpart =>
        h.nonneg part (hpart.trans (List.prefix_append front _))
      omega
    · exact ⟨front, back, rfl, hleft⟩

/-- Brackets in balance that are not nested hold no nested comma. -/
theorem not_hasNestedComma (hlevel : ∀ part, part <+: text → bracketDepth part ≤ 1) :
    ¬ HasNestedComma text := by
  rintro ⟨front, back, rfl, hpos, hleft⟩
  have htotal := h.total
  rw [bracketDepth_append, bracketDepth_comma_cons] at htotal
  refine hleft ⟨?_, ?_⟩
  · rcases isFlat_or_exists_last front with hflat | ⟨outer, inner, hinner, rfl | rfl⟩
    · rw [hflat.bracketDepth_eq_zero] at hpos
      omega
    · exact ⟨outer, inner, hinner, rfl⟩
    · -- A closing bracket would end a second level.
      have houter := hlevel outer (by simp [List.append_assoc])
      rw [bracketDepth_append, bracketDepth_close_cons, hinner.bracketDepth_eq_zero] at hpos
      omega
  · rcases isFlat_or_exists_first back with hflat | ⟨inner, after, hinner, rfl | rfl⟩
    · rw [hflat.bracketDepth_eq_zero] at htotal
      omega
    · -- An opening bracket would begin a second level.
      have hinside := hlevel (front ++ ',' :: (inner ++ ['('])) ⟨after, by simp⟩
      rw [bracketDepth_append, bracketDepth_comma_cons, bracketDepth_append,
        hinner.bracketDepth_eq_zero] at hinside
      have hone : bracketDepth ['('] = 1 := rfl
      omega
    · exact ⟨inner, after, hinner, rfl⟩

end HasBalancedBrackets

/-- A line without quotes and without the comment marker declares several cases exactly if a comma
is left when its groups are removed. -/
theorem isMultiCase_iff {m : Markers} {line : Line}
    (hquotes : ∀ c ∈ Text.trim line, c ≠ '\'' ∧ c ≠ '"')
    (hmarker : ¬ m.commentMarker <:+: Text.trim line) :
    line.isMultiCase m = true ↔ ',' ∈ withoutGroups (Text.trim line) := by
  rw [isMultiCase, withoutQuoted_eq_self hquotes, Text.before_eq_self hmarker,
    List.contains_iff_mem]

instance (text : List Char) : Decidable (HasBalancedBrackets text) :=
  decidable_of_iff ((∀ part ∈ text.inits, 0 ≤ bracketDepth part) ∧ bracketDepth text = 0) <| by
    simp only [List.mem_inits]
    exact ⟨fun h => ⟨h.1, h.2⟩, fun h => ⟨h.nonneg, h.total⟩⟩

/-- A text has a comma outside all brackets exactly if it goes on with one behind a part of depth
zero. -/
theorem hasOuterComma_iff (text : List Char) :
    HasOuterComma text ↔
      ∃ front ∈ text.inits, front ++ [','] <+: text ∧ bracketDepth front = 0 := by
  constructor
  · rintro ⟨front, back, rfl, hzero⟩
    refine ⟨front, List.mem_inits _ _ |>.mpr (List.prefix_append front _), ⟨back, ?_⟩, hzero⟩
    simp
  · rintro ⟨front, -, ⟨back, rfl⟩, hzero⟩
    exact ⟨front, back, by simp, hzero⟩

instance (text : List Char) : Decidable (HasOuterComma text) :=
  decidable_of_iff _ (hasOuterComma_iff text).symm

end Line

variable {s : Settings} {m : Markers} {lines : List Line} {line : Int} {skip : Option Bool}
  {expectedCount : Option Int} {path : Option String} {r : Report}

/-- A report on a block lists a line without quotes and comment whose brackets are in balance
exactly if it has a comma outside all brackets or one in brackets of which the closest hold another
bracket. So it tells whether the line has a comma outside all brackets exactly if it has one or has
none of the other kind, and always if the brackets are not nested. -/
theorem mem_multiCaseLines_iff_outer_or_nested
    (h : Report.inspect s lines line skip expectedCount path = .ok r) {b : Block}
    (hblock : r.block = some b) (hmarkers : s.markers = .ok m) {k : Int} {text : Line}
    (hline : b.HasLine lines k text) (hfiller : text.isFiller m = false)
    (hquotes : ∀ c ∈ Text.trim text, c ≠ '\'' ∧ c ≠ '"')
    (hmarker : ¬ m.commentMarker <:+: Text.trim text)
    (hbalanced : Line.HasBalancedBrackets (Text.trim text)) :
    (k ∈ r.multiCaseLines ↔
      Line.HasOuterComma (Text.trim text) ∨ Line.HasNestedComma (Text.trim text)) ∧
    ((k ∈ r.multiCaseLines ↔ Line.HasOuterComma (Text.trim text)) ↔
      (Line.HasOuterComma (Text.trim text) ∨ ¬ Line.HasNestedComma (Text.trim text))) ∧
    ((∀ part, part <+: Text.trim text → Line.bracketDepth part ≤ 1) →
      (k ∈ r.multiCaseLines ↔ Line.HasOuterComma (Text.trim text))) := by
  obtain ⟨other, hother, haccounts⟩ := Report.exists_accounts_of_inspect h hblock
  obtain rfl : m = other := Except.ok.inj (hmarkers.symm.trans hother)
  have hlisted : k ∈ r.multiCaseLines ↔
      Line.HasOuterComma (Text.trim text) ∨ Line.HasNestedComma (Text.trim text) := by
    rw [← hbalanced.mem_withoutGroups_iff, ← Line.isMultiCase_iff hquotes hmarker,
      haccounts.mem_multiCaseLines_iff]
    constructor
    · rintro ⟨found, hfound, -, hmulti⟩
      rwa [hline.unique hfound]
    · intro hmulti
      exact ⟨text, hline, hfiller, hmulti⟩
  refine ⟨hlisted, ?_, fun hlevel => ?_⟩
  · rw [hlisted]
    tauto
  · rw [hlisted, or_iff_left (hbalanced.not_hasNestedComma hlevel)]

/-- A line with values in brackets and a second case behind them is listed. -/
theorem mem_multiCaseLines_iff_outer_or_nested_flat :
    let lines := ["case a(T, U), b", "case c(T)"].map String.toList
    let text := "case a(T, U), b".toList
    ∃ r, Report.inspect Options.default lines 0 (some false) none none = .ok r ∧
      r.block = some ⟨0, 1⟩ ∧ Block.HasLine ⟨0, 1⟩ lines 0 text ∧
      Line.isFiller Options.default.toMarkers text = false ∧
      (∀ c ∈ Text.trim text, c ≠ '\'' ∧ c ≠ '"') ∧
      ¬ Options.default.commentMarker <:+: Text.trim text ∧
      Line.HasBalancedBrackets (Text.trim text) ∧ Line.HasOuterComma (Text.trim text) ∧
      (∀ part, part <+: Text.trim text → Line.bracketDepth part ≤ 1) ∧
      (0 ∈ r.multiCaseLines ↔ Line.HasOuterComma (Text.trim text)) := by
  intro lines text
  obtain ⟨r, hr, hblock⟩ :
      ∃ r, Report.inspect Options.default lines 0 (some false) none none = .ok r ∧
        r.block = some ⟨0, 1⟩ :=
    ⟨_, rfl, by decide +kernel⟩
  have hline : Block.HasLine ⟨0, 1⟩ lines 0 text := ⟨rfl, rfl⟩
  have hfiller : Line.isFiller Options.default.toMarkers text = false := by decide
  have hall : ((Text.trim text).all fun c => c ≠ '\'' ∧ c ≠ '"') = true := by decide
  have hquotes : ∀ c ∈ Text.trim text, c ≠ '\'' ∧ c ≠ '"' :=
    fun c hc => of_decide_eq_true (List.all_eq_true.mp hall c hc)
  have hmarker : ¬ Options.default.commentMarker <:+: Text.trim text := by decide +kernel
  have hbalanced : Line.HasBalancedBrackets (Text.trim text) := by decide +kernel
  have houter : Line.HasOuterComma (Text.trim text) := by decide +kernel
  have hlevel : ∀ part, part <+: Text.trim text → Line.bracketDepth part ≤ 1 := by
    simp only [← List.mem_inits]
    decide +kernel
  have hlisted := mem_multiCaseLines_iff_outer_or_nested hr hblock Options.default.markers_settings
    hline hfiller hquotes hmarker hbalanced
  exact ⟨r, hr, hblock, hline, hfiller, hquotes, hmarker, hbalanced, houter, hlevel,
    hlisted.2.2 hlevel⟩

/-- A single case whose values are a pair and another type is listed, although it has no comma
outside the brackets of its values. -/
theorem multiCaseLines_of_nested_values :
    let lines := ["case a((Int, Int), Int)"].map String.toList
    let text := "case a((Int, Int), Int)".toList
    ∃ r, Report.inspect Options.default lines 0 (some false) none none = .ok r ∧
      r.block = some ⟨0, 0⟩ ∧ Block.HasLine ⟨0, 0⟩ lines 0 text ∧
      Line.isFiller Options.default.toMarkers text = false ∧
      (∀ c ∈ Text.trim text, c ≠ '\'' ∧ c ≠ '"') ∧
      ¬ Options.default.commentMarker <:+: Text.trim text ∧
      Line.HasBalancedBrackets (Text.trim text) ∧ ¬ Line.HasOuterComma (Text.trim text) ∧
      r.multiCaseLines = [0] := by
  intro lines text
  obtain ⟨r, hr, hblock, hmultis⟩ :
      ∃ r, Report.inspect Options.default lines 0 (some false) none none = .ok r ∧
        r.block = some ⟨0, 0⟩ ∧ r.multiCaseLines = [0] :=
    ⟨_, rfl, by decide +kernel⟩
  have hall : ((Text.trim text).all fun c => c ≠ '\'' ∧ c ≠ '"') = true := by decide
  have hquotes : ∀ c ∈ Text.trim text, c ≠ '\'' ∧ c ≠ '"' :=
    fun c hc => of_decide_eq_true (List.all_eq_true.mp hall c hc)
  have hmarker : ¬ Options.default.commentMarker <:+: Text.trim text := by decide +kernel
  have hbalanced : Line.HasBalancedBrackets (Text.trim text) := by decide +kernel
  have houter : ¬ Line.HasOuterComma (Text.trim text) := by decide +kernel
  exact ⟨r, hr, hblock, ⟨rfl, rfl⟩, by decide, hquotes, hmarker, hbalanced, houter, hmultis⟩

end EnumLabels
