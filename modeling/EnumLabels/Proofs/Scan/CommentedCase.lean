import EnumLabels.Proofs.Scan.Declaration
import EnumLabels.Proofs.Scan.KeywordWords
import EnumLabels.Proofs.Text.Marker

/-!
# Case lines with a comment

The scan reads the label of a case line from the whole line and does not look for a comment behind
the case. As long as the case is named before the first comment marker its label stands there. If it
is not, the first word of the comment is taken for the label, and only a case line that has no word
in its comment either is an error.
-/

namespace EnumLabels

namespace Line

/-- The trimmed line up to its first comment marker. -/
def code (m : Markers) (line : Line) : List Char :=
  Text.before m.commentMarker (Text.trim line)

/-- The trimmed line from its first comment marker on. -/
def comment (m : Markers) (line : Line) : List Char :=
  (Text.trim line).drop (line.code m).length

/-- What stands between the keyword of a case line and its first comment marker. -/
def codeAfterKeyword (m : Markers) (line : Line) : List Char :=
  (line.code m).drop m.keyword.length

/-- A case line with a letter or digit between the keyword and its first comment marker. -/
def NamesCase (m : Markers) (line : Line) : Prop :=
  ∃ c ∈ line.codeAfterKeyword m, Text.isWordChar c = true

instance (m : Markers) (line : Line) : Decidable (line.NamesCase m) :=
  decidable_of_iff ((line.codeAfterKeyword m).any Text.isWordChar = true) List.any_eq_true

/-- A case line with no letter or digit behind the keyword, neither before its first comment marker
nor in the comment. -/
def IsWordless (m : Markers) (line : Line) : Prop :=
  line.isCase m = true ∧ ¬ line.NamesCase m ∧ ∀ c ∈ line.comment m, Text.isWordChar c = false

/-- The label of a case line that is the first word before its first comment marker, or the first
one of the comment if the case is not named before. -/
structure IsLabelledBesideComment (m : Markers) (line : Line) (label : String) : Prop where
  isCase : line.isCase m = true
  code : line.NamesCase m → Text.IsFirstWord (line.codeAfterKeyword m) label.toList
  comment : ¬ line.NamesCase m → Text.IsFirstWord (line.comment m) label.toList

/-- A case that is not named before the first comment marker has no letter or digit there. -/
theorem not_namesCase_iff {m : Markers} {line : Line} :
    ¬ line.NamesCase m ↔ ∀ c ∈ line.codeAfterKeyword m, Text.isWordChar c = false := by
  simp [NamesCase]

/-- A line is empty from its first comment marker on or begins with the marker there. -/
theorem code_append_comment (m : Markers) (line : Line) :
    line.code m ++ line.comment m = Text.trim line ∧
      (line.comment m = [] ∨ m.commentMarker <+: line.comment m) := by
  rcases Text.exists_eq_before_append m.commentMarker (Text.trim line) with hall | ⟨more, hmore⟩
  · have hcomment : line.comment m = [] := by rw [comment, code, hall, List.drop_length]
    exact ⟨by rw [hcomment, List.append_nil, code, hall], .inl hcomment⟩
  · have hcomment : line.comment m = m.commentMarker ++ more :=
      (congrArg (List.drop _) hmore).trans List.drop_left
    rw [hcomment]
    exact ⟨hmore.symm, .inr (List.prefix_append _ _)⟩

variable {m : Markers} (hm : m.Plain) {line : Line}
include hm

/-- A comment does not begin with a letter or digit. -/
theorem isWordChar_head_comment : ∀ c ∈ (line.comment m).head?, Text.isWordChar c = false := by
  intro c hc
  rcases (code_append_comment m line).2 with hnil | ⟨more, hmore⟩
  · rw [hnil] at hc
    contradiction
  · obtain ⟨d, rest, hmarker⟩ := List.exists_cons_of_ne_nil m.commentMarker_ne_nil
    rw [← hmore, hmarker] at hc
    obtain rfl := Option.some.inj hc
    exact hm.commentMarker d (by simp [hmarker])

/-- Behind the keyword of a case line there is what stands before the first comment marker, and then
the comment. -/
theorem codeAfterKeyword_append_comment (hkeyword : m.keyword <+: Text.trim line) :
    line.codeAfterKeyword m ++ line.comment m = line.afterKeyword m := by
  obtain ⟨rest, hrest⟩ := hkeyword
  have hmarker : ∀ c ∈ m.keyword, m.commentMarker.head? ≠ some c := by
    intro c hc hhead
    have hword := hm.keyword c hc
    rw [hm.commentMarker c hhead] at hword
    contradiction
  -- The marker does not begin within the keyword, so the keyword is part of the code.
  have hcode : line.code m = m.keyword ++ Text.before m.commentMarker rest := by
    rw [code, ← hrest, Text.before_append_of_head_ne m.commentMarker_ne_nil hmarker]
  have hlength : m.keyword.length ≤ (line.code m).length := by
    rw [hcode, List.length_append]
    exact Nat.le_add_right _ _
  rw [afterKeyword, ← (code_append_comment m line).1, List.drop_append_of_le_length hlength,
    codeAfterKeyword]

/-- The label of a case line is the first word between the keyword and its first comment marker, or
that of the comment if there is none. -/
theorem IsLabelled.besideComment {label : String} (h : line.IsLabelled m label)
    (hcase : line.isCase m = true) : line.IsLabelledBesideComment m label := by
  obtain ⟨hkeyword, hlabel⟩ := h
  rw [← codeAfterKeyword_append_comment hm hkeyword,
    Text.isFirstWord_append_iff (isWordChar_head_comment hm)] at hlabel
  rcases hlabel with hcode | ⟨hnone, hcomment⟩
  · refine ⟨hcase, fun _ => hcode, fun hunnamed => ?_⟩
    obtain ⟨more, hwords⟩ := hcode.exists_words_eq
    rw [Text.words_eq_nil (not_namesCase_iff.mp hunnamed)] at hwords
    contradiction
  · exact ⟨hcase, fun hnamed => absurd hnamed (not_namesCase_iff.mpr hnone), fun _ => hcomment⟩

/-- A case line has no letter or digit behind the keyword exactly if neither the case is named
before the first comment marker nor the comment has a word. -/
theorem isUnnamed_iff_isWordless (hcase : line.isCase m = true) :
    line.IsUnnamed m ↔ line.IsWordless m := by
  rw [IsUnnamed, IsWordless, hm.isFiller_of_isCase hcase, eq_self_iff_true, true_and,
    ← codeAfterKeyword_append_comment hm (isCase_iff.mp hcase).1, List.forall_mem_append,
    not_namesCase_iff, and_iff_right hcase]

end Line

namespace Block.IsFirst

variable {m : Markers} (hm : m.Plain) {lines : List Line} {cursor : Nat} {b : Block}
  (h : b.IsFirst m lines cursor)
include hm h

/-- The labels of a first block belong to its lines that are no filler lines, and are taken from
comments only where the cases are not named before. -/
theorem exists_besideComment {labels : List String} (hlabels : b.labels m lines = .ok labels) :
    ∃ numbers : List Int, numbers.Pairwise (· < ·) ∧
      (∀ k, k ∈ numbers ↔ ∃ text, b.HasLine lines k text ∧ text.isFiller m = false) ∧
      List.Forall₂ (fun k label => ∃ text, b.HasLine lines k text ∧
        text.IsLabelledBesideComment m label) numbers labels := by
  obtain ⟨numbers, hsorted, hmem, hall⟩ := h.exists_of_labels_ok hlabels
  refine ⟨numbers, hsorted, hmem, ?_⟩
  have hkept : ∀ k ∈ numbers, ∃ text, b.HasLine lines k text ∧ text.isCase m = true := by
    intro k hk
    obtain ⟨text, hline, hfiller⟩ := (hmem k).mp hk
    exact ⟨text, hline, h.isCase_of_isFiller hline hfiller⟩
  refine ((List.forall₂_and_left _ _).mpr ⟨hkept, hall⟩).imp ?_
  rintro k label ⟨⟨text, hline, hcase⟩, other, hother, hlabel⟩
  obtain rfl := hline.unique hother
  exact ⟨text, hline, hlabel.besideComment hm hcase⟩

/-- A line of a first block is unnamed exactly if it is a case line without a word, in its comment
or before it. -/
theorem isUnnamed_iff {k : Int} {text : Line} (hline : b.HasLine lines k text) :
    text.IsUnnamed m ↔ text.IsWordless m := by
  constructor
  · intro hunnamed
    have hcase := h.isCase_of_isFiller hline hunnamed.1
    exact (Line.isUnnamed_iff_isWordless hm hcase).mp hunnamed
  · intro hwordless
    exact (Line.isUnnamed_iff_isWordless hm hwordless.1).mpr hwordless

end Block.IsFirst

/-- With settings a scan takes the labels of the block that is found with their markers. -/
theorem scan_of_markers {s : Settings} {m : Markers} (hmarkers : s.markers = .ok m)
    (lines : List Line) {line : Int} (hline : 0 ≤ line) (skip : Option Bool) :
    scan s lines line skip =
      match locate? m lines (scanStart s lines line skip) with
      | none => .ok []
      | some b => b.labels m lines := by
  rw [scan, if_neg (Int.not_lt.mpr hline), Settings.locate_of_markers hmarkers]
  cases locate? m lines (scanStart s lines line skip) with
  | none => rfl
  | some b => exact Settings.labels_of_markers hmarkers lines b

/-- With a keyword that is a word and a comment marker that does not begin as one, the labels of a
scan belong to the lines of the block that are no filler lines. Each label is the first word between
the keyword and the first comment marker of its line or, if there is none, the first word of the
comment. The scan fails exactly if a line of the block has neither, and the error names such a
line. -/
theorem scan_labels_beside_comments {s : Settings} {m : Markers} (hmarkers : s.markers = .ok m)
    (hm : m.Plain) (lines : List Line) {line : Int} (hline : 0 ≤ line) (skip : Option Bool) :
    (∀ labels, scan s lines line skip = .ok labels →
      s.locate lines (scanStart s lines line skip) = .ok none ∧ labels = [] ∨
      ∃ b, s.locate lines (scanStart s lines line skip) = .ok (some b) ∧
        ∃ numbers : List Int, numbers.Pairwise (· < ·) ∧
          (∀ k, k ∈ numbers ↔ ∃ text, b.HasLine lines k text ∧ text.isFiller m = false) ∧
          List.Forall₂ (fun k label => ∃ text, b.HasLine lines k text ∧
            text.IsLabelledBesideComment m label) numbers labels) ∧
    ((∃ e, scan s lines line skip = .error e) ↔
      ∃ b k text, s.locate lines (scanStart s lines line skip) = .ok (some b) ∧
        b.HasLine lines k text ∧ text.IsWordless m) ∧
    ∀ e, scan s lines line skip = .error e →
      ∃ b k text, s.locate lines (scanStart s lines line skip) = .ok (some b) ∧
        b.HasLine lines k text ∧ text.IsWordless m ∧
        e = .unnamedCase k (String.ofList (Text.trim text)) := by
  rw [scan_of_markers hmarkers lines hline]
  simp only [Settings.locate_of_markers hmarkers, Except.ok.injEq]
  cases hlocate : locate? m lines (scanStart s lines line skip) with
  | none =>
    refine ⟨fun labels hlabels => .inl ⟨rfl, (Except.ok.inj hlabels).symm⟩, ?_, ?_⟩
    · constructor
      · rintro ⟨e, herror⟩
        contradiction
      · rintro ⟨b, k, text, hfound, -⟩
        contradiction
    · intro e herror
      contradiction
  | some b =>
    have hfirst := locate?_eq_some_iff.mp hlocate
    refine ⟨fun labels hlabels => .inr ⟨b, rfl, hfirst.exists_besideComment hm hlabels⟩, ?_, ?_⟩
    · rw [hfirst.exists_labels_error_iff]
      constructor
      · rintro ⟨k, text, htext, hunnamed⟩
        exact ⟨b, k, text, rfl, htext, (hfirst.isUnnamed_iff hm htext).mp hunnamed⟩
      · rintro ⟨other, k, text, hother, htext, hwordless⟩
        obtain rfl := Option.some.inj hother
        exact ⟨k, text, htext, (hfirst.isUnnamed_iff hm htext).mpr hwordless⟩
    · intro e herror
      obtain ⟨k, text, htext, hunnamed, -, rfl⟩ := hfirst.exists_of_labels_error herror
      exact ⟨b, k, text, rfl, htext, (hfirst.isUnnamed_iff hm htext).mp hunnamed, rfl⟩

/-- Of two labels the second one is the first word of a comment, and a third case with neither a
name nor a word in its comment is the error. -/
theorem scan_labels_beside_comments_named :
    let m := Options.default.toMarkers
    let named := ["case a // b", "case // note"].map String.toList
    let unnamed := named ++ ["case // ..".toList]
    scan Options.default named 0 (some false) = .ok ["a", "note"] ∧
      (∃ numbers : List Int, numbers.Pairwise (· < ·) ∧
        (∀ k, k ∈ numbers ↔
          ∃ text, Block.HasLine ⟨0, 1⟩ named k text ∧ text.isFiller m = false) ∧
        List.Forall₂ (fun k label => ∃ text, Block.HasLine ⟨0, 1⟩ named k text ∧
          text.IsLabelledBesideComment m label) numbers ["a", "note"]) ∧
      ∃ e, scan Options.default unnamed 0 (some false) = .error e := by
  intro m named unnamed
  have hmarkers := Options.default.markers_settings
  have hnamed := scan_labels_beside_comments hmarkers Markers.plain_default named
    (Int.le_refl 0) (some false)
  have hunnamed := scan_labels_beside_comments hmarkers Markers.plain_default unnamed
    (Int.le_refl 0) (some false)
  have hlabels : scan Options.default named 0 (some false) = .ok ["a", "note"] := rfl
  have hlocate : Settings.locate Options.default named
      (scanStart Options.default named 0 (some false)) = .ok (some ⟨0, 1⟩) := rfl
  refine ⟨hlabels, ?_, hunnamed.2.1.mpr ⟨⟨0, 2⟩, 2, "case // ..".toList, rfl, ⟨rfl, rfl⟩, ?_⟩⟩
  · rcases hnamed.1 ["a", "note"] hlabels with ⟨-, hnil⟩ | ⟨b, hfound, hall⟩
    · contradiction
    · obtain rfl := Option.some.inj (Except.ok.inj (hlocate.symm.trans hfound))
      exact hall
  · have hcomment :
        ((Line.comment m "case // ..".toList).all fun c => !Text.isWordChar c) = true := by decide
    exact ⟨by decide, by decide, fun c hc => by simpa using List.all_eq_true.mp hcomment c hc⟩

/-- A case line without a name before its comment gives the first word of the comment, which does
not stand before the comment marker. -/
theorem scan_takes_label_of_comment :
    let m := Options.default.toMarkers
    let text := "case // note".toList
    scan Options.default [text] 0 (some false) = .ok ["note"] ∧
      Line.isCase m text = true ∧ ¬ Line.NamesCase m text ∧
      ¬ "note".toList <:+: Text.before m.commentMarker (Text.trim text) := by
  refine ⟨rfl, ?_, ?_, ?_⟩ <;> decide

end EnumLabels
