import EnumLabels.Proofs.Scan.BlockLabels

/-!
# The words of a case line

A case line is told by how it begins, and its label is read behind as many characters as the keyword
has. Both can be said by the words of the line: they are those of the keyword and those behind it,
since the keyword does not run into what follows. So the label is the word behind the words of the
keyword, however many these are. A keyword that is a word itself is the first word of its case lines
and of no other line that begins with a letter or digit.
-/

namespace EnumLabels

namespace Line

variable {m : Markers} {line : Line}

/-- A keyword that is left a word of its own shares no word with the text that follows it. -/
theorem words_append_of_leavesWord {keyword rest : List Char} (h : leavesWord keyword rest = true) :
    Text.words (keyword ++ rest) = Text.words keyword ++ Text.words rest := by
  cases rest with
  | nil => simp [Text.words_eq_nil]
  | cons c more =>
    rcases List.eq_nil_or_concat' keyword with rfl | ⟨front, k, rfl⟩
    · rfl
    · have hseparated : Text.isWordChar k = false ∨ Text.isWordChar c = false := by
        simpa [leavesWord, ← Bool.not_eq_true, imp_iff_not_or] using h
      rcases hseparated with hk | hc
      · rw [List.append_assoc, List.singleton_append, Text.words_append_cons hk,
          Text.words_append_cons hk front [], List.append_assoc]
        rfl
      · exact Text.words_append_of_head (by simpa using hc) _

/-- A case line is the keyword and what stands behind it. -/
theorem keyword_append_afterKeyword (h : line.isCase m = true) :
    m.keyword ++ line.afterKeyword m = Text.trim line :=
  List.prefix_iff_eq_append.mp (isCase_iff.mp h).1

/-- The words of a case line are those of the keyword and those behind it. -/
theorem words_trim_of_isCase (h : line.isCase m = true) :
    Text.words (Text.trim line) = Text.words m.keyword ++ Text.words (line.afterKeyword m) := by
  rw [← keyword_append_afterKeyword h, words_append_of_leavesWord (isCase_iff.mp h).2]

/-- The word of a line at a place, counted from zero in the trimmed line. -/
def wordAt? (place : Nat) (line : Line) : Option String :=
  (Text.words (Text.trim line))[place]?.map String.ofList

/-- The label of a case line is the word behind those of the keyword. -/
theorem label?_eq_wordAt? (h : line.isCase m = true) :
    line.label? m = line.wordAt? (Text.words m.keyword).length := by
  rw [label?, wordAt?, words_trim_of_isCase h, List.getElem?_append_right (Nat.le_refl _),
    Nat.sub_self, List.head?_eq_getElem?]

/-- A case line gives no label exactly if it has no more words than the keyword. -/
theorem label?_eq_none_iff_length_le (h : line.isCase m = true) :
    line.label? m = none ↔
      (Text.words (Text.trim line)).length ≤ (Text.words m.keyword).length := by
  rw [label?_eq_wordAt? h, wordAt?, Option.map_eq_none_iff, List.getElem?_eq_none_iff]

/-- With a keyword that is a word, case lines begin with a letter or digit and have the keyword as
their first word. -/
theorem isCase_iff_head?_words (hkeyword : ∀ c ∈ m.keyword, Text.isWordChar c = true) :
    line.isCase m = true ↔
      (∃ c ∈ (Text.trim line).head?, Text.isWordChar c = true) ∧
        (Text.words (Text.trim line)).head? = some m.keyword := by
  constructor
  · intro h
    obtain ⟨c, rest, hcons⟩ := List.exists_cons_of_ne_nil m.keyword_ne_nil
    refine ⟨⟨c, ?_, hkeyword c (by simp [hcons])⟩, ?_⟩
    · rw [← keyword_append_afterKeyword h, hcons]
      rfl
    · rw [words_trim_of_isCase h, Text.words_eq_singleton m.keyword_ne_nil hkeyword]
      rfl
  · rintro ⟨⟨d, hhead, hd⟩, hwords⟩
    obtain ⟨separators, tail, htrim, hseparators, -, -, htail⟩ :=
      Text.head?_words_eq_some_iff.mp hwords
    -- Nothing stands in front of the first word, since the line begins with a letter or digit.
    have hnil : separators = [] := by
      cases separators with
      | nil => rfl
      | cons s more =>
        rw [htrim] at hhead
        obtain rfl := Option.some.inj hhead
        rw [hseparators s List.mem_cons_self] at hd
        contradiction
    rw [hnil, List.nil_append] at htrim
    rw [isCase_iff, afterKeyword, htrim, List.drop_left]
    refine ⟨List.prefix_append _ _, ?_⟩
    cases tail with
    | nil => exact leavesWord_nil m.keyword
    | cons c more => exact leavesWord_cons (htail c rfl) _ _

end Line

/-- A first block has its labels from the words of its lines. -/
theorem Block.IsFirst.labels_eq_mapM_wordAt? {m : Markers} {lines : List Line} {cursor : Nat}
    {b : Block} (h : b.IsFirst m lines cursor) :
    b.labels m lines = ((b.numbered lines).filter fun n => !n.2.isFiller m).mapM
      (labelFrom (Line.wordAt? (Text.words m.keyword).length)) := by
  rw [h.labels_eq, labelsOf_eq_mapM]
  refine mapM_congr fun n hn => ?_
  obtain ⟨hline, hfiller⟩ := h.mem_filter_numbered_iff.mp hn
  rw [labelFrom, labelFrom, Line.label?_eq_wordAt? (h.isCase_of_isFiller hline hfiller)]

/-- The words of a case line are those of the keyword and those behind it. So each line of a block
that is no filler line has the word behind those of the keyword as its label, and is an error
exactly if it has no more words than the keyword. A keyword of letters and digits is the first word
of its case lines and of no other line that begins with a letter or digit, and the second one is the
label. -/
theorem labels_are_words_behind_keyword (o : Options) :
    (∀ line : Line, line.isCase o.toMarkers = true →
      Text.words (Text.trim line) =
        Text.words o.keyword ++ Text.words ((Text.trim line).drop o.keyword.length)) ∧
    (∀ (lines : List Line) (cursor : Nat) (b : Block),
      Settings.locateFrom o lines cursor = .ok (some b) →
        Settings.labels o lines b =
          ((b.numbered lines).filter fun n => !n.2.isFiller o.toMarkers).mapM
            (labelFrom (Line.wordAt? (Text.words o.keyword).length)) ∧
        ∀ k line, b.HasLine lines k line → line.isFiller o.toMarkers = false →
          line.label? o.toMarkers = line.wordAt? (Text.words o.keyword).length ∧
          (line.label? o.toMarkers = none ↔
            (Text.words (Text.trim line)).length ≤ (Text.words o.keyword).length)) ∧
    ((∀ c ∈ o.keyword, Text.isWordChar c = true) → ∀ line : Line,
      (line.isCase o.toMarkers = true ↔
        (∃ c ∈ (Text.trim line).head?, Text.isWordChar c = true) ∧
          (Text.words (Text.trim line)).head? = some o.keyword) ∧
      (line.isCase o.toMarkers = true → line.label? o.toMarkers = line.wordAt? 1)) := by
  refine ⟨fun line hcase => ?_, fun lines cursor b hlocate => ⟨?_, ?_⟩,
    fun hkeyword line => ⟨?_, ?_⟩⟩
  · exact Line.words_trim_of_isCase hcase
  · rw [o.locateFrom_eq_some_iff] at hlocate
    rw [o.labels_settings, hlocate.labels_eq_mapM_wordAt?]
  · rw [o.locateFrom_eq_some_iff] at hlocate
    intro k line hline hfiller
    have hcase := hlocate.isCase_of_isFiller hline hfiller
    exact ⟨Line.label?_eq_wordAt? hcase, Line.label?_eq_none_iff_length_le hcase⟩
  · exact Line.isCase_iff_head?_words hkeyword
  · intro hcase
    rw [Line.label?_eq_wordAt? hcase, Text.words_eq_singleton o.keyword_ne_nil hkeyword]
    rfl

/-- With a keyword of two words the labels are the third words, and with one of a single word the
second. -/
theorem labels_are_words_behind_keyword_of_two_words :
    let o : Options :=
      { Options.default with
        keyword := "enum case".toList
        keyword_ne_nil := by decide }
    let lines := ["enum case a_1", " // enum case", "enum case(b)"].map String.toList
    let line := "case_x".toList
    Settings.locateFrom o lines (0 : Nat) = .ok (some ⟨0, 2⟩) ∧
      Settings.labels o lines ⟨0, 2⟩ =
        ((Block.numbered ⟨0, 2⟩ lines).filter fun n => !n.2.isFiller o.toMarkers).mapM
          (labelFrom (Line.wordAt? 2)) ∧
      (∀ c ∈ Options.default.keyword, Text.isWordChar c = true) ∧
      Line.isCase Options.default.toMarkers line = true ∧
      Line.label? Options.default.toMarkers line = Line.wordAt? 1 line := by
  intro o lines line
  have hlocate : Settings.locateFrom o lines (0 : Nat) = .ok (some ⟨0, 2⟩) := by
    rw [o.locateFrom_natCast]
    rfl
  have hplace : (Text.words o.keyword).length = 2 := by decide
  have hlabels := ((labels_are_words_behind_keyword o).2.1 lines 0 ⟨0, 2⟩ hlocate).1
  rw [hplace] at hlabels
  have hkeyword : ∀ c ∈ Options.default.keyword, Text.isWordChar c = true :=
    List.all_eq_true.mp rfl
  have hcase : Line.isCase Options.default.toMarkers line = true := by decide
  have hword := (labels_are_words_behind_keyword Options.default).2.2 hkeyword line
  exact ⟨hlocate, hlabels, hkeyword, hcase, hword.2 hcase⟩

end EnumLabels
