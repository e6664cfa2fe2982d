import EnumLabels.Proofs.Scan.FirstBlock
import EnumLabels.Proofs.Scan.LineKind
import EnumLabels.Proofs.Scan.Nesting

/-!
# What is left of a skipped closure

A scan that steps over a closure goes on at the line that closes it, and that line is looked at
once more. So the closure is left behind as a whole exactly when its closing line is no case
line. Otherwise the closing line begins the block, with what may be a part of the closure.

The outcome can be the same all the same. Whatever follows the closure, it is the same only if
the closing line is no case line, or if the comment marker is a part of the keyword with which
the keyword begins, since then every case line is a comment and no scan gives a label.
-/

namespace EnumLabels

/-- Some lines begin a closure, and on the line after them stands the close brace that matches
their first open brace. No close brace comes before that open brace. -/
def Options.ClosesOn (o : Options) (before : List Line) (closing : Line) : Prop :=
  ∃ lead body front back, closing = front ++ o.closeBrace :: back ∧
    before.flatten ++ front = lead ++ o.openBrace :: body ∧
    o.openBrace ∉ lead ∧ o.closeBrace ∉ lead ∧ o.IsBalanced body

namespace Options.ClosesOn

variable {o : Options} {before : List Line} {closing : Line}

/-- The closing line is found where it stands. -/
theorem closingLine?_eq (h : o.ClosesOn before closing) (index : Nat) (rest : List Line) :
    closingLine? o.braces .start index (before ++ closing :: rest) =
      some (index + before.length) := by
  obtain ⟨lead, body, front, back, rfl, htext, hopen, hclose, hbody⟩ := h
  have hread : Nesting.start.readLine? o.braces (before.flatten ++ front) = some ⟨1, true⟩ := by
    rw [htext, Nesting.readLine?_start_iff]
    refine ⟨?_, o.runsOn_of_isBalanced hopen hclose hbody⟩
    simp [o.balance_eq_zero hopen hclose, hbody.total]
  refine closingLine?_split hread ?_ index
  simp [Nesting.next, Nesting.isClosed, Options.braces, o.braces_ne]

/-- A closure that begins near the call site is skipped up to its closing line. -/
theorem skipClosure_eq (h : o.ClosesOn before closing) {above : List Line} {line : Int}
    (hline : (line - 1).toNat = above.length) (rest : List Line) :
    skipClosure o.braces (above ++ (before ++ closing :: rest)) line =
      above.length + before.length := by
  rw [skipClosure, hline, List.drop_left, h.closingLine?_eq]
  rfl

/-- A scan that steps over the closure goes on with its closing line. -/
theorem scan_skipping (h : o.ClosesOn before closing) {above : List Line} {line : Int}
    (hnonneg : 0 ≤ line) (hline : (line - 1).toNat = above.length) {skip : Option Bool}
    (hskip : skip.getD o.skipsClosures = true) (rest : List Line) :
    scan o (above ++ (before ++ closing :: rest)) line skip =
      o.toMarkers.read (above.length + before.length : Nat) (closing :: rest) := by
  rw [o.scan_eq_read _ hnonneg, o.scanStart_skipping _ _ hskip, h.skipClosure_eq hline,
    ← List.append_assoc, ← List.length_append, List.drop_left]

end Options.ClosesOn

/-- A scan that steps over nothing reads the lines after as many as it is told to leave out. -/
theorem Options.scan_append_notSkipping (o : Options) (above rest : List Line)
    {skip : Option Bool} (hskip : skip.getD o.skipsClosures = false) :
    scan o (above ++ rest) above.length skip = o.toMarkers.read above.length rest := by
  rw [o.scan_eq_read _ (Int.natCast_nonneg _), o.scanStart_notSkipping _ _ hskip,
    Int.toNat_natCast, List.drop_left]

namespace Markers

variable {m : Markers}

/-- Filler lines give no labels. -/
theorem labelsOf_eq_nil {numbered : List (Int × Line)}
    (h : ∀ n ∈ numbered, n.2.isFiller m = true) : labelsOf m numbered = .ok [] := by
  induction numbered with
  | nil => rfl
  | cons n rest ih =>
    obtain ⟨hn, hrest⟩ := List.forall_mem_cons.mp h
    simp only [labelsOf, hn, if_true]
    exact ih hrest

/-- A line that is no filler line gives a label or is an error. -/
theorem labelsOf_cons_ne_nil {line : Line} (h : line.isFiller m = false) (number : Int)
    (rest : List (Int × Line)) : labelsOf m ((number, line) :: rest) ≠ .ok [] := by
  simp only [labelsOf, h, Bool.false_eq_true, if_false]
  cases line.label? m with
  | none => simp
  | some label => cases labelsOf m rest <;> simp [Functor.map, Except.map]

/-- If the keyword begins with the comment marker then no lines give a label. -/
theorem read_of_commentMarker_prefix (h : m.commentMarker <+: m.keyword) (number : Int)
    (lines : List Line) : m.read number lines = .ok [] := by
  refine labelsOf_eq_nil fun n hn => ?_
  have hcontinues := continues_of_mem_block (mem_of_mem_numberedFrom hn)
  simp only [continues, Bool.or_eq_true] at hcontinues
  rcases hcontinues with hcase | hfiller
  · exact Line.isFiller_iff.mpr (.inr (h.trans (Line.isCase_iff.mp hcase).1))
  · exact hfiller

/-- Some line is neither a case line nor a filler line. -/
theorem exists_not_continues (m : Markers) : ∃ line, m.continues line = false := by
  obtain ⟨a, as, ha⟩ := List.exists_cons_of_ne_nil m.keyword_ne_nil
  obtain ⟨b, bs, hb⟩ := List.exists_cons_of_ne_nil m.commentMarker_ne_nil
  obtain ⟨x, hblank, hxa, hxb⟩ : ∃ x, Text.isBlank x = false ∧ x ≠ a ∧ x ≠ b := by
    by_cases hx : 'x' ≠ a ∧ 'x' ≠ b
    · exact ⟨'x', rfl, hx⟩
    · by_cases hy : 'y' ≠ a ∧ 'y' ≠ b
      · exact ⟨'y', rfl, hy⟩
      · exact ⟨'z', rfl, by grind⟩
  have htrim : Text.trim [x] = [x] := Text.trim_cons hblank []
  have hcase : Line.isCase m [x] ≠ true := by
    rw [Ne, Line.isCase_iff, htrim, ha, List.cons_prefix_cons]
    exact fun h => hxa h.1.1.symm
  have hfiller : Line.isFiller m [x] ≠ true := by
    rw [Ne, Line.isFiller_iff, htrim, hb, List.cons_prefix_cons]
    rintro (h | h)
    · simp at h
    · exact hxb h.1.symm
  refine ⟨[x], ?_⟩
  simp [continues, hcase, hfiller]

/-- A case line that is a comment shows that the marker begins with the keyword, or the keyword
with the marker. -/
theorem commentMarker_eq_of_isFiller {line : Line} (hcase : line.isCase m = true)
    (hfiller : line.isFiller m = true) (hmarker : ¬ m.commentMarker <+: m.keyword) :
    ∃ d more, m.commentMarker = m.keyword ++ d :: more := by
  have hbegins : m.commentMarker <+: Text.trim line :=
    (Line.isFiller_iff.mp hfiller).resolve_left (Line.trim_ne_nil_of_isCase hcase)
  rcases List.prefix_or_prefix_of_prefix (Line.isCase_iff.mp hcase).1 hbegins with ⟨tail, htail⟩ | h
  · cases tail with
    | nil => exact absurd ⟨[], by simpa using htail.symm⟩ hmarker
    | cons d more => exact ⟨d, more, htail.symm⟩
  · exact absurd h hmarker

/-- If the marker goes on after the keyword then some case line is no comment. -/
theorem exists_isCase_not_isFiller {c d : Char} {rest more : List Char}
    (hkeyword : m.keyword = c :: rest) (hblank : Text.isBlank c = false)
    (hmarker : m.commentMarker = m.keyword ++ d :: more) :
    ∃ line : Line, line.isCase m = true ∧ line.isFiller m = false := by
  -- The keyword is followed by a character that is no part of a word and with which the marker
  -- does not go on.
  obtain ⟨y, hy, hword, hyd⟩ : ∃ y, Text.isBlank y = false ∧ Text.isWordChar y = false ∧ y ≠ d := by
    by_cases h : d = ','
    · exact ⟨';', by decide, by decide, by simp [h]⟩
    · exact ⟨',', by decide, by decide, Ne.symm h⟩
  have htrim : Text.trim (m.keyword ++ [y]) = m.keyword ++ [y] := by
    rw [hkeyword, List.cons_append, Text.trim_cons hblank, Text.trimEnd_append_cons hy]
    rfl
  refine ⟨m.keyword ++ [y], ?_, ?_⟩
  · rw [Line.isCase_iff, Line.afterKeyword, htrim, List.drop_left]
    exact ⟨List.prefix_append _ _, Line.leavesWord_cons hword _ _⟩
  · rw [← Bool.not_eq_true, Line.isFiller_iff, htrim, hmarker, List.prefix_append_right_inj,
      List.cons_prefix_cons]
    rintro (h | h)
    · simp at h
    · exact hyd h.1.symm

/-- After a closing line that is a case line, some lines tell whether it was left out. -/
theorem exists_read_ne {closing : Line} (hcase : closing.isCase m = true)
    (hmarker : ¬ m.commentMarker <+: m.keyword) (number : Int) :
    ∃ rest, m.read number (closing :: rest) ≠ m.read (number + 1) rest := by
  cases hfiller : closing.isFiller m with
  | false =>
    refine ⟨[], ?_⟩
    rw [read_cons_of_isCase hcase, read_eq_nil (by simp)]
    exact labelsOf_cons_ne_nil hfiller _ _
  | true =>
    obtain ⟨d, more, hmore⟩ := commentMarker_eq_of_isFiller hcase hfiller hmarker
    obtain ⟨c, rest, hkeyword⟩ := List.exists_cons_of_ne_nil m.keyword_ne_nil
    obtain ⟨labelled, hlabelled, hlabel⟩ :=
      exists_isCase_not_isFiller hkeyword (Line.isBlank_of_isCase hcase hkeyword) hmore
    obtain ⟨other, hother⟩ := m.exists_not_continues
    have hgap : other.isCase m = false := (Bool.or_eq_false_iff.mp hother).1
    refine ⟨[other, labelled], ?_⟩
    -- The closing line alone is the block when it counts, and the labelled line when it does not.
    have hshort : m.read number [closing, other, labelled] = .ok [] := by
      rw [read_cons_of_isCase hcase]
      simp [hother, numberedFrom, labelsOf, hfiller]
    rw [hshort, read_cons hgap, read_cons_of_isCase hlabelled]
    exact (labelsOf_cons_ne_nil hlabel _ _).symm

end Markers

/-- Lines up to the closing line, divided where the reading of the closure starts. -/
theorem take_append_eq_closure {lines : List Line} {start k : Nat} (hk : k < lines.length)
    (hstart : start ≤ k) (rest : List Line) :
    lines.take (k + 1) ++ rest =
      lines.take start ++ ((lines.drop start).take (k - start) ++ lines[k] :: rest) := by
  have hbefore : lines.take k = lines.take start ++ (lines.drop start).take (k - start) := by
    rw [← List.take_add, Nat.add_sub_cancel' hstart]
  rw [List.take_succ_eq_append_getElem hk, hbefore]
  simp

section NumberedLines

variable {o : Options} {lines : List Line} {line : Int} {k : Nat} (hk : k < lines.length)
  (hstart : (line - 1).toNat ≤ k)

include hk hstart

/-- Reading starts after the lines above the call site. -/
theorem length_take_start : (line - 1).toNat = (lines.take (line - 1).toNat).length := by
  rw [List.length_take]
  omega

/-- The lines above the closing line are those above the call site and those of the closure. -/
theorem length_take_add : (lines.take (line - 1).toNat).length +
    ((lines.drop (line - 1).toNat).take (k - (line - 1).toNat)).length = k := by
  simp only [List.length_take, List.length_drop]
  omega

variable
  (hcloses : o.ClosesOn ((lines.drop (line - 1).toNat).take (k - (line - 1).toNat)) lines[k])

include hcloses

/-- The closure is skipped up to line `k`, on which it closes. -/
theorem skipClosure_eq_of_closesOn : skipClosure o.braces lines line = k := by
  have hskip := hcloses.skipClosure_eq (length_take_start hk hstart) (lines.drop (k + 1))
  rwa [← take_append_eq_closure hk hstart, List.take_append_drop, length_take_add hk hstart]
    at hskip

/-- Whatever follows the closure, a scan that steps over it goes on with line `k`. -/
theorem scan_skipping_take (hline : 0 ≤ line) (rest : List Line) :
    scan o (lines.take (k + 1) ++ rest) line (some true) =
      o.toMarkers.read k (lines[k] :: rest) := by
  rw [take_append_eq_closure hk hstart,
    hcloses.scan_skipping hline (length_take_start hk hstart) rfl, length_take_add hk hstart]

end NumberedLines

/-- A scan from the line after line `k` reads what follows that line. -/
theorem scan_notSkipping_take (o : Options) {lines : List Line} {k : Nat} (hk : k < lines.length)
    (rest : List Line) :
    scan o (lines.take (k + 1) ++ rest) (k + 1 : Nat) (some false) =
      o.toMarkers.read (k + 1 : Nat) rest := by
  have htake : (lines.take (k + 1)).length = k + 1 := by
    rw [List.length_take]
    omega
  simpa only [htake] using o.scan_append_notSkipping (lines.take (k + 1)) rest rfl

/-- A scan leaves a skipped closure behind as a whole exactly when the closing line is no case
line, and whatever follows the closure, the outcome is then that of a scan which begins after it.
Only if every case line is a comment is the outcome the same with a closing line that is one. -/
theorem scan_past_closure_iff (o : Options) (lines : List Line) (line : Int) (hline : 0 ≤ line)
    (k : Nat) (hk : k < lines.length) (hstart : (line - 1).toNat ≤ k)
    (hcloses : o.ClosesOn ((lines.drop (line - 1).toNat).take (k - (line - 1).toNat)) lines[k]) :
    ((scan o lines line (some true) = scan o lines (k + 1 : Nat) (some false) ∧
        ∀ b, locate? o.toMarkers lines (skipClosure o.braces lines line) = some b → k < b.first) ↔
      lines[k].isCase o.toMarkers = false) ∧
    ((∀ rest, scan o (lines.take (k + 1) ++ rest) line (some true) =
        scan o (lines.take (k + 1) ++ rest) (k + 1 : Nat) (some false)) ↔
      lines[k].isCase o.toMarkers = false ∨ o.commentMarker <+: o.keyword) := by
  have hskipping := scan_skipping_take hk hstart hcloses hline
  have hplain := scan_notSkipping_take o hk
  have hcursor := skipClosure_eq_of_closesOn hk hstart hcloses
  have hahead : lines.drop k = lines[k] :: lines.drop (k + 1) := List.drop_eq_getElem_cons hk
  have hequal (hcase : lines[k].isCase o.toMarkers = false) (rest : List Line) :
      o.toMarkers.read k (lines[k] :: rest) = o.toMarkers.read (k + 1 : Nat) rest :=
    Markers.read_cons hcase k rest
  refine ⟨⟨?_, ?_⟩, ⟨?_, ?_⟩⟩
  · rintro ⟨-, hfirst⟩
    by_contra hcase
    have hlocate := locate?_of_isCase hahead (by simpa using hcase)
    rw [← hcursor] at hlocate
    have hlt := hfirst _ hlocate
    simp [hcursor] at hlt
  · intro hcase
    refine ⟨?_, fun b hb => lt_first_of_locate? hahead hcase (hcursor ▸ hb)⟩
    rw [← List.take_append_drop (k + 1) lines, hskipping, hplain, hequal hcase]
  · intro hall
    by_contra! hcase
    obtain ⟨rest, hne⟩ :=
      Markers.exists_read_ne (by simpa using hcase.1) hcase.2 (k : Int)
    exact hne ((hskipping rest).symm.trans ((hall rest).trans (hplain rest)))
  · rintro (hcase | hmarker) rest
    · rw [hskipping, hplain, hequal hcase]
    · rw [hskipping, hplain, Markers.read_of_commentMarker_prefix hmarker,
        Markers.read_of_commentMarker_prefix hmarker]

/-- The closure of a source is left behind, with another closure inside it. -/
theorem scan_past_nested_closure :
    Options.default.ClosesOn ["Gen \x7b".toList, "  f \x7b 1 \x7d".toList] "\x7d".toList ∧
      scan Options.default
          ["Gen \x7b".toList, "  f \x7b 1 \x7d".toList, "\x7d".toList, "case zero".toList]
          1 (some true) =
        scan Options.default
          ["Gen \x7b".toList, "  f \x7b 1 \x7d".toList, "\x7d".toList, "case zero".toList]
          3 (some false) := by
  have hcloses :
      Options.default.ClosesOn ["Gen \x7b".toList, "  f \x7b 1 \x7d".toList] "\x7d".toList :=
    ⟨"Gen ".toList, "  f \x7b 1 \x7d".toList, [], [], by decide⟩
  exact ⟨hcloses, ((scan_past_closure_iff Options.default
    ["Gen \x7b".toList, "  f \x7b 1 \x7d".toList, "\x7d".toList, "case zero".toList]
    1 (by decide) 2 (by decide) (by decide) hcloses).1.mpr (by decide)).1⟩

/-- A closing line that is a case line gives a label from within the closure. -/
theorem scan_takes_label_of_closing_line :
    Options.default.ClosesOn ["let e = Gen \x7b".toList] "case .none: 0 \x7d".toList ∧
      scan Options.default
          ["let e = Gen \x7b".toList, "case .none: 0 \x7d".toList, "case zero".toList]
          1 (some true) = .ok ["none", "zero"] ∧
      scan Options.default
          ["let e = Gen \x7b".toList, "case .none: 0 \x7d".toList, "case zero".toList]
          2 (some false) = .ok ["zero"] := by
  refine ⟨⟨"let e = Gen ".toList, "case .none: 0 ".toList, "case .none: 0 ".toList, [], ?_⟩, ?_, ?_⟩
  · decide
  · rw [Options.scan_eq_read _ _ (by decide)]
    rfl
  · rw [Options.scan_eq_read _ _ (by decide)]
    rfl

end EnumLabels
