import EnumLabels.Proofs.Report.Agreement
import EnumLabels.Proofs.Scan.BlockLabels
import EnumLabels.Proofs.Scan.SkippedClosure

/-!
# Case lines that are comments

The search for a block takes a case line whether it is a comment or not, and labels are taken from
the lines that are no comments. A line can be both if the keyword and the comment marker can begin
one line. Then a block can begin with a comment and hold nothing else, and a report shows it without
labels. With all other markers the first line of a block gives a label or is an error.
-/

namespace EnumLabels

namespace Markers

/-- The keyword and the comment marker can begin one line. The keyword does not begin with a blank,
and the marker begins the keyword, or the keyword begins the marker and is a word of its own
there. -/
def Overlap (m : Markers) : Prop :=
  (∀ c ∈ m.keyword.head?, Text.isBlank c = false) ∧
    (m.commentMarker <+: m.keyword ∨
      m.keyword <+: m.commentMarker ∧
        Line.leavesWord m.keyword (m.commentMarker.drop m.keyword.length) = true)

instance (m : Markers) : Decidable m.Overlap :=
  -- Only the first character is tried, not all that there are.
  haveI : Decidable (∀ c ∈ m.keyword.head?, Text.isBlank c = false) := Option.decidableForallMem _
  inferInstanceAs (Decidable ((∀ c ∈ m.keyword.head?, Text.isBlank c = false) ∧
    (m.commentMarker <+: m.keyword ∨
      m.keyword <+: m.commentMarker ∧
        Line.leavesWord m.keyword (m.commentMarker.drop m.keyword.length) = true)))

variable {m : Markers}

/-- The markers of a case line that is a filler line overlap. -/
theorem overlap_of_line {line : Line} (hcase : line.isCase m = true)
    (hfiller : line.isFiller m = true) : m.Overlap := by
  obtain ⟨hkeyword, hword⟩ := Line.isCase_iff.mp hcase
  have hmarker : m.commentMarker <+: Text.trim line :=
    (Line.isFiller_iff.mp hfiller).resolve_left (Line.trim_ne_nil_of_isCase hcase)
  refine ⟨fun c hc => ?_, ?_⟩
  · obtain ⟨rest, hrest⟩ := List.head?_eq_some_iff.mp hc
    exact Line.isBlank_of_isCase hcase hrest
  · rcases List.prefix_or_prefix_of_prefix hmarker hkeyword with h | ⟨rest, hrest⟩
    · exact .inl h
    · obtain ⟨more, hmore⟩ := hmarker
      by_cases hnil : rest = []
      · rw [hnil, List.append_nil] at hrest
        exact .inl (hrest ▸ List.prefix_refl _)
      · rw [Line.afterKeyword, ← hmore, ← hrest, List.append_assoc, List.drop_left,
          Line.leavesWord_append _ hnil] at hword
        rw [← hrest, List.drop_left]
        exact .inr ⟨List.prefix_append _ _, hword⟩

/-- A text that both markers begin, the keyword as a word of its own, begins a line that is a case
line and a filler line. -/
theorem exists_line_of_prefix {text : List Char}
    (hblank : ∀ c ∈ m.keyword.head?, Text.isBlank c = false) (hkeyword : m.keyword <+: text)
    (hmarker : m.commentMarker <+: text)
    (hword : Line.leavesWord m.keyword (text.drop m.keyword.length) = true) :
    ∃ line : Line, line.isCase m = true ∧ line.isFiller m = true := by
  obtain ⟨rest, rfl⟩ := hkeyword
  obtain ⟨c, tail, hcons⟩ := List.exists_cons_of_ne_nil m.keyword_ne_nil
  have hc : Text.isBlank c = false := hblank c (by rw [hcons]; rfl)
  -- A separator behind the text keeps a blank at its end from being trimmed.
  have htrim : Text.trim (m.keyword ++ rest ++ [',']) = m.keyword ++ rest ++ [','] := by
    have hcomma : Text.isBlank ',' = false := by decide
    rw [hcons, List.cons_append, List.cons_append, Text.trim_cons hc,
      Text.trimEnd_append_cons hcomma]
    rfl
  rw [List.drop_left] at hword
  refine ⟨m.keyword ++ rest ++ [','], ?_, ?_⟩
  · rw [Line.isCase_iff, Line.afterKeyword, htrim, List.append_assoc, List.drop_left]
    refine ⟨List.prefix_append _ _, ?_⟩
    by_cases hnil : rest = []
    · rw [hnil]
      exact Line.leavesWord_cons (by decide) _ _
    · rwa [Line.leavesWord_append _ hnil]
  · rw [Line.isFiller_iff, htrim]
    exact .inr (hmarker.trans (List.prefix_append _ _))

/-- Markers that overlap have a line that is a case line and a filler line. -/
theorem Overlap.exists_line (h : m.Overlap) :
    ∃ line : Line, line.isCase m = true ∧ line.isFiller m = true := by
  obtain ⟨hblank, hmarker | ⟨hkeyword, hword⟩⟩ := h
  · refine exists_line_of_prefix hblank (List.prefix_refl _) hmarker ?_
    rw [List.drop_length]
    exact Line.leavesWord_nil _
  · exact exists_line_of_prefix hblank hkeyword (List.prefix_refl _) hword

end Markers

/-- An outcome that shows a label or a case without a name. -/
def GivesLabel (outcome : Except Error (List String)) : Prop :=
  (∃ number text, outcome = .error (.unnamedCase number text)) ∨
    ∃ label labels, outcome = .ok (label :: labels)

namespace Block.IsFirst

variable {m : Markers} {lines : List Line} {cursor : Nat} {b : Block}
  (h : b.IsFirst m lines cursor)
include h

/-- A first block begins with a case line. -/
theorem exists_hasLine_first : ∃ line, b.HasLine lines b.first line ∧ line.isCase m = true := by
  obtain ⟨line, hline, hcase⟩ := h.isCase_first
  have hlast := h.first_le_last
  exact ⟨line, ⟨contains_iff.mpr ⟨Int.le_refl _, hlast⟩, hline⟩, hcase⟩

/-- A first block gives no label exactly if all its lines are filler lines. -/
theorem labels_eq_nil_iff :
    b.labels m lines = .ok [] ↔ ∀ k line, b.HasLine lines k line → line.isFiller m = true := by
  constructor
  · intro hlabels k line hline
    obtain ⟨numbers, -, hnumbers, hforall⟩ := h.exists_of_labels_ok hlabels
    obtain rfl := List.forall₂_nil_right_iff.mp hforall
    by_contra hfiller
    simpa using (hnumbers k).mpr ⟨line, hline, by simpa using hfiller⟩
  · intro hall
    rw [h.labels_eq]
    exact Markers.labelsOf_eq_nil fun n hn => hall n.1 n.2 (h.mem_numbered_iff.mp hn)

/-- A first block shows a label or a case without a name unless it has no labels. -/
theorem givesLabel_iff : GivesLabel (b.labels m lines) ↔ b.labels m lines ≠ .ok [] := by
  constructor
  · rintro (⟨number, text, herror⟩ | ⟨label, labels, hlabels⟩)
    · simp [herror]
    · simp [hlabels]
  · intro hne
    cases hlabels : b.labels m lines with
    | error e =>
      obtain ⟨k, line, -, -, -, rfl⟩ := h.exists_of_labels_error hlabels
      exact .inl ⟨k, _, rfl⟩
    | ok labels =>
      cases labels with
      | nil => exact absurd hlabels hne
      | cons label labels => exact .inr ⟨label, labels, rfl⟩

/-- Unless the markers overlap, a first block does not begin with a filler line. -/
theorem isFiller_first (hoverlap : ¬ m.Overlap) {line : Line}
    (hline : b.HasLine lines b.first line) : line.isFiller m = false := by
  obtain ⟨first, hfirst, hcase⟩ := h.exists_hasLine_first
  obtain rfl := Option.some.inj (hline.2.symm.trans hfirst.2)
  by_contra hfiller
  exact hoverlap (Markers.overlap_of_line hcase (by simpa using hfiller))

/-- Unless the markers overlap, a first block shows a label or a case without a name. -/
theorem givesLabel (hoverlap : ¬ m.Overlap) : GivesLabel (b.labels m lines) := by
  obtain ⟨first, hfirst, -⟩ := h.exists_hasLine_first
  rw [h.givesLabel_iff, Ne, h.labels_eq_nil_iff]
  intro hall
  have hfiller := hall b.first first hfirst
  rw [h.isFiller_first hoverlap hfirst] at hfiller
  contradiction

end Block.IsFirst

/-- Markers that overlap have a block of one comment, which gives no label. -/
theorem Markers.Overlap.exists_block {m : Markers} (h : m.Overlap) :
    ∃ line : Line, Block.IsFirst m [line] 0 ⟨0, 0⟩ ∧ line.isFiller m = true ∧
      Block.labels m [line] ⟨0, 0⟩ = .ok [] := by
  obtain ⟨line, hcase, hfiller⟩ := h.exists_line
  have hahead : [line].drop 0 = [] ++ line :: ([] ++ []) := rfl
  have hfirst : Block.IsFirst m [line] 0 ⟨0, 0⟩ :=
    isFirst_of_drop_eq hahead (by simp) hcase (by simp) (by simp)
  refine ⟨line, hfirst, hfiller, hfirst.labels_eq_nil_iff.mpr fun k other hother => ?_⟩
  have hmem : other ∈ [line] := List.mem_of_getElem? hother.2
  rwa [List.mem_singleton.mp hmem]

/-- The first line of a block that is found is a case line, and the block gives no label exactly if
all its lines are filler lines. For exactly those markers that do not overlap its first line is
never a filler line, it always shows a label or a case without a name, and no report shows a block
without labels. -/
theorem located_block_gives_label_iff (o : Options) :
    (∀ (lines : List Line) (cursor : Nat) (b : Block),
      Settings.locateFrom o lines cursor = .ok (some b) →
        (∃ first, b.HasLine lines b.first first ∧ first.isCase o.toMarkers = true) ∧
        (GivesLabel (Settings.labels o lines b) ↔ Settings.labels o lines b ≠ .ok []) ∧
        (Settings.labels o lines b = .ok [] ↔
          ∀ k line, b.HasLine lines k line → line.isFiller o.toMarkers = true)) ∧
    ((∀ (lines : List Line) (cursor : Nat) (b : Block),
      Settings.locateFrom o lines cursor = .ok (some b) →
        ∀ first, b.HasLine lines b.first first → first.isFiller o.toMarkers = false) ↔
      ¬ o.Overlap) ∧
    ((∀ (lines : List Line) (cursor : Nat) (b : Block),
      Settings.locateFrom o lines cursor = .ok (some b) →
        GivesLabel (Settings.labels o lines b)) ↔ ¬ o.Overlap) ∧
    ((∀ lines line skip expectedCount path r,
      Report.inspect o lines line skip expectedCount path = .ok r → r.block.isSome = true →
        r.labels ≠ []) ↔ ¬ o.Overlap) := by
  have hreport (lines : List Line) (line : Int) (skip : Option Bool) (expectedCount : Option Int)
      (path : Option String) (b : Block) (labels : List String) :
      (∃ r, Report.inspect o lines line skip expectedCount path = .ok r ∧ r.block = some b ∧
        r.labels = labels) ↔
        0 ≤ line ∧ b.IsFirst o.toMarkers lines (scanStart o lines line skip) ∧
          b.labels o.toMarkers lines = .ok labels := by
    rw [Report.exists_inspect_iff o.markers_settings, o.locate_settings, Except.ok.injEq,
      locate?_eq_some_iff, o.labels_settings]
  simp only [o.locateFrom_eq_some_iff, o.labels_settings]
  refine ⟨fun lines cursor b h => ⟨?_, h.givesLabel_iff, h.labels_eq_nil_iff⟩, ⟨?_, ?_⟩, ⟨?_, ?_⟩,
    ⟨?_, ?_⟩⟩
  · exact h.exists_hasLine_first
  · intro hall hoverlap
    obtain ⟨line, hfirst, hfiller, -⟩ := hoverlap.exists_block
    have hnot := hall [line] 0 ⟨0, 0⟩ hfirst line ⟨rfl, rfl⟩
    rw [hfiller] at hnot
    contradiction
  · intro hoverlap lines cursor b h first hline
    exact h.isFiller_first hoverlap hline
  · intro hall hoverlap
    obtain ⟨line, hfirst, -, hlabels⟩ := hoverlap.exists_block
    exact hfirst.givesLabel_iff.mp (hall [line] 0 ⟨0, 0⟩ hfirst) hlabels
  · intro hoverlap lines cursor b h
    exact h.givesLabel hoverlap
  · intro hall hoverlap
    obtain ⟨line, hfirst, -, hlabels⟩ := hoverlap.exists_block
    obtain ⟨r, hr, hblock, hnil⟩ :=
      (hreport [line] 0 (some false) none none ⟨0, 0⟩ []).mpr ⟨Int.le_refl 0, hfirst, hlabels⟩
    exact hall [line] 0 (some false) none none r hr (by simp [hblock]) hnil
  · intro hoverlap lines line skip expectedCount path r hr hblock hnil
    obtain ⟨b, hb⟩ := Option.isSome_iff_exists.mp hblock
    obtain ⟨-, hfirst, hlabels⟩ :=
      (hreport lines line skip expectedCount path b []).mp ⟨r, hr, hb, hnil⟩
    exact hfirst.givesLabel_iff.mp (hfirst.givesLabel hoverlap) hlabels

/-- A comment marker that begins with the keyword does not overlap it if the keyword runs on there.
The comment is then passed over and the case behind it gives its label. -/
theorem located_block_gives_label_behind_comment :
    let o : Options :=
      { Options.default with
        commentMarker := "cases".toList
        commentMarker_ne_nil := by decide }
    let lines := ["cases of x", "case a"].map String.toList
    ¬ o.Overlap ∧
      Settings.locateFrom o lines (0 : Nat) = .ok (some ⟨1, 1⟩) ∧
      Block.HasLine ⟨1, 1⟩ lines 1 "case a".toList ∧
      Line.isFiller o.toMarkers "case a".toList = false ∧
      GivesLabel (Settings.labels o lines ⟨1, 1⟩) ∧
      ∃ r, Report.inspect o lines 0 (some false) none none = .ok r ∧ r.block.isSome = true ∧
        r.labels ≠ [] := by
  intro o lines
  have hoverlap : ¬ o.Overlap := by decide
  have hlocate : Settings.locateFrom o lines (0 : Nat) = .ok (some ⟨1, 1⟩) := by
    rw [o.locateFrom_natCast]
    rfl
  have hline : Block.HasLine ⟨1, 1⟩ lines 1 "case a".toList := ⟨rfl, rfl⟩
  have hreported : Settings.locate o lines 0 = .ok (some ⟨1, 1⟩) := by
    rw [o.locate_settings]
    rfl
  have hlabels : Settings.labels o lines ⟨1, 1⟩ = .ok ["a"] := by
    rw [o.labels_settings]
    rfl
  have hreport : ∃ r, Report.inspect o lines 0 (some false) none none = .ok r ∧
      r.block = some ⟨1, 1⟩ ∧ r.labels = ["a"] :=
    (Report.exists_inspect_iff o.markers_settings).mpr ⟨Int.le_refl 0, hreported, hlabels⟩
  obtain ⟨r, hr, hblock, -⟩ := hreport
  have hsome : r.block.isSome = true := by rw [hblock]; rfl
  have hall := located_block_gives_label_iff o
  refine ⟨hoverlap, hlocate, hline, ?_, ?_, r, hr, hsome, ?_⟩
  · exact hall.2.1.mpr hoverlap lines 0 ⟨1, 1⟩ hlocate _ hline
  · exact hall.2.2.1.mpr hoverlap lines 0 ⟨1, 1⟩ hlocate
  · exact hall.2.2.2.mpr hoverlap lines 0 (some false) none none r hr hsome

/-- A block of one comment is found where the marker begins the keyword. It gives no label, and the
report shows it without labels. -/
theorem located_comment_gives_no_label :
    let o : Options :=
      { Options.default with
        keyword := "#define".toList
        commentMarker := "#".toList
        keyword_ne_nil := by decide
        commentMarker_ne_nil := by decide }
    let lines := ["#define red".toList]
    Settings.locateFrom o lines (0 : Nat) = .ok (some ⟨0, 0⟩) ∧
      Line.isCase o.toMarkers "#define red".toList = true ∧
      Line.isFiller o.toMarkers "#define red".toList = true ∧
      Settings.labels o lines ⟨0, 0⟩ = .ok [] ∧
      ∃ r, Report.inspect o lines 0 (some false) none none = .ok r ∧ r.block = some ⟨0, 0⟩ ∧
        r.labels = [] := by
  intro o lines
  have hlocate : Settings.locate o lines 0 = .ok (some ⟨0, 0⟩) := by
    rw [o.locate_settings]
    rfl
  have hlabels : Settings.labels o lines ⟨0, 0⟩ = .ok [] := by
    rw [o.labels_settings]
    rfl
  refine ⟨?_, by decide, by decide, hlabels, ?_⟩
  · rw [o.locateFrom_natCast]
    rfl
  · exact (Report.exists_inspect_iff o.markers_settings).mpr ⟨Int.le_refl 0, hlocate, hlabels⟩

end EnumLabels
