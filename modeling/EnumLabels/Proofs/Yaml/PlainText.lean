import EnumLabels.Proofs.Yaml.Cursor

/-!
# Plain text is read back

Plain text is a line of words with blanks between them. A word holds no blanks, does not start
with a hash sign and does not end with a colon. A single blank may have been written as a line
end, and is read from it as the blank that it was.

Plain text ends before the colon behind a key and at a line that is indented less than its block.
-/

namespace EnumLabels.Yaml

/-- A word of plain text. -/
structure IsWord (word : List Char) : Prop where
  nonempty : word ≠ []
  ordinary : word.all isOrdinary = true
  noBlank : ' ' ∉ word
  noBreak : '\n' ∉ word
  noHash : word.head? ≠ some '#'
  noColon : word.getLast? ≠ some ':'

/-- How plain text may be written that is continued at an indentation. -/
inductive FoldsTo (indent : Nat) : List Char → List Char → Prop
  | word {word : List Char} (hword : IsWord word) : FoldsTo indent word word
  | blanks {word text written : List Char} (hword : IsWord word) (count : Nat)
      (h : FoldsTo indent text written) :
      FoldsTo indent (word ++ (List.replicate (count + 1) ' ' ++ text))
        (word ++ (List.replicate (count + 1) ' ' ++ written))
  | line {word text written : List Char} (hword : IsWord word) (h : FoldsTo indent text written) :
      FoldsTo indent (word ++ ' ' :: text) (word ++ (newline indent ++ written))

/-- A line that can be told apart from the line before it. -/
structure IsLine (line : List Char) : Prop where
  noMark : isDocumentMark line = false
  head : ∀ c ∈ line.head?, c ≠ '#' ∧ isGap c = false ∧ isBreak c = false

section Words

variable {word more : List Char}

/-- The characters of a word neither separate words nor end lines. -/
theorem IsWord.inner (h : IsWord word) : ∀ c ∈ word, isGap c = false ∧ isBreak c = false := by
  intro c hc
  refine isGap_isBreak_eq_false (List.all_eq_true.mp h.ordinary c hc) ?_ ?_
  · rintro rfl
    exact h.noBlank hc
  · rintro rfl
    exact h.noBreak hc

/-- A chunk that may be followed by `more` is read up to there. -/
theorem plainChunk_append_of_inner (hinner : ∀ c ∈ word, isGap c = false ∧ isBreak c = false)
    (hcolon : word.getLast? ≠ some ':') (hmore : plainChunk false more = ([], more)) :
    plainChunk false (word ++ more) = (word, more) := by
  induction word with
  | nil => exact hmore
  | cons c word ih =>
    obtain ⟨⟨hgap, hbreak⟩, hrest⟩ := List.forall_mem_cons.mp hinner
    have hcontinues : (c == ':' && atSpace (word ++ more)) = false := by
      cases word with
      | nil =>
        have hc : c ≠ ':' := fun heq => hcolon (by rw [heq]; rfl)
        rw [beq_eq_false_iff_ne.mpr hc, Bool.false_and]
      | cons d word =>
        obtain ⟨hgap', hbreak'⟩ := hrest d List.mem_cons_self
        rw [List.cons_append, atSpace, hgap', hbreak', Bool.or_self, Bool.and_false]
    have hlast : word.getLast? ≠ some ':' := by
      cases word with
      | nil => simp
      | cons d word => rwa [List.getLast?_cons_cons] at hcolon
    have hends : endsPlain false c (word ++ more) = false := by
      simp only [endsPlain, hgap, hbreak, Bool.false_and, Bool.or_false, Bool.false_or]
      exact hcontinues
    rw [List.cons_append, plainChunk, hends, if_neg Bool.false_ne_true, ih hrest hlast]

/-- The first chunk of a word and what ends it is the word. -/
theorem IsWord.plainChunk_append (h : IsWord word) (hmore : plainChunk false more = ([], more)) :
    plainChunk false (word ++ more) = (word, more) :=
  plainChunk_append_of_inner h.inner h.noColon hmore

/-- A word starts with a character of its own. -/
theorem IsWord.head_append (h : IsWord word) (more : List Char) :
    ∃ c rest, word ++ more = c :: rest ∧ c ≠ '#' ∧ isGap c = false ∧ isBreak c = false := by
  obtain ⟨c, rest, rfl⟩ := List.exists_cons_of_ne_nil h.nonempty
  exact ⟨c, rest ++ more, rfl, fun heq => h.noHash (by rw [heq]; rfl), h.inner c List.mem_cons_self⟩

/-- Written plain text starts with a character of a word. -/
theorem FoldsTo.head_append {indent : Nat} {text written : List Char}
    (h : FoldsTo indent text written) (more : List Char) :
    ∃ c rest, written ++ more = c :: rest ∧ c ≠ '#' ∧ isGap c = false ∧ isBreak c = false := by
  cases h with
  | word hword => exact hword.head_append more
  | blanks hword =>
    rw [List.append_assoc]
    exact hword.head_append _
  | line hword =>
    rw [List.append_assoc]
    exact hword.head_append _

end Words

/-- What ends plain text below the column `indent`: some text that is passed and what is left. -/
structure EndsPlain (indent : Nat) (passed rest : List Char) (broken : Bool) : Prop where
  chunk : plainChunk false (passed ++ rest) = ([], passed ++ rest)
  gap : (plainGap (passed ++ rest)).rest = rest ∧ (plainGap (passed ++ rest)).broken = broken
  stops : (plainGap (passed ++ rest)).text = [] ∨
    ∀ (cursor : Cursor) (before : List Char), (cursor.pass (before ++ passed) rest).column < indent

section Gaps

variable {rest : List Char}

/-- The colon behind a key ends plain text. -/
theorem endsPlain_colon (indent : Nat) (h : atSpace rest = true) :
    EndsPlain indent [] (':' :: rest) false where
  chunk := by
    rw [List.nil_append, plainChunk, if_pos]
    simp [endsPlain, h]
  gap := ⟨rfl, rfl⟩
  stops := Or.inl rfl

/-- Blanks at the start of a line hold no line ends. -/
theorem plainBreaks_indentation (hhead : ∀ c ∈ rest.head?, isGap c = false ∧ isBreak c = false)
    (count : Nat) : plainBreaks (List.replicate count ' ' ++ rest) = (some [], rest) := by
  induction count with
  | zero =>
    rw [List.replicate_zero, List.nil_append]
    cases rest with
    | nil => rfl
    | cons c rest =>
      obtain ⟨hgap, hbreak⟩ := hhead c rfl
      have hblank : c ≠ ' ' := by
        rintro rfl
        contradiction
      rw [plainBreaks, if_neg hblank, hbreak, if_neg Bool.false_ne_true]
  | succ count ih => rw [List.replicate_succ, List.cons_append, plainBreaks, if_pos rfl, ih]

/-- A line end before an indented line counts as a blank. -/
theorem plainGap_newline {indent : Nat}
    (hmark : isDocumentMark (List.replicate indent ' ' ++ rest) = false)
    (hhead : ∀ c ∈ rest.head?, isGap c = false ∧ isBreak c = false) :
    plainGap (newline indent ++ rest) = ⟨[' '], true, rest⟩ := by
  have hdrop : (newline indent ++ rest).dropWhile (· == ' ') =
      '\n' :: (List.replicate indent ' ' ++ rest) := rfl
  have hbreak : isBreak '\n' = true := rfl
  have hbreaks := plainBreaks_indentation hhead indent
  unfold plainGap
  simp only [hdrop, hbreak, if_true, hmark, if_neg Bool.false_ne_true, hbreaks]
  rfl

/-- Blanks before a word count as themselves. -/
theorem plainGap_blanks {c : Char} (hgap : isGap c = false) (hbreak : isBreak c = false)
    (count : Nat) (rest : List Char) :
    plainGap (List.replicate count ' ' ++ c :: rest) =
      ⟨List.replicate count ' ', false, c :: rest⟩ := by
  have hblank : (c == ' ') = false := by
    rw [isGap, Bool.or_eq_false_iff] at hgap
    exact hgap.1
  have htake : (List.replicate count ' ' ++ c :: rest).takeWhile (· == ' ') =
      List.replicate count ' ' := by
    rw [List.takeWhile_append_of_pos (by simp), List.takeWhile_cons_of_neg (by simp [hblank]),
      List.append_nil]
  have hdrop : (List.replicate count ' ' ++ c :: rest).dropWhile (· == ' ') = c :: rest := by
    rw [List.dropWhile_append_of_pos (by simp), List.dropWhile_cons_of_neg (by simp [hblank])]
  unfold plainGap
  simp only [htake, hdrop, hbreak, if_neg Bool.false_ne_true]

/-- A line that is indented less ends plain text. -/
theorem endsPlain_newline {indent column : Nat} (hcolumn : column < indent) (h : IsLine rest) :
    EndsPlain indent (newline column) rest true := by
  have hmark : isDocumentMark (List.replicate column ' ' ++ rest) = false := by
    cases column with
    | zero => exact h.noMark
    | succ column => exact isDocumentMark_indentation (Nat.succ_pos column) rest
  have hgap := plainGap_newline hmark fun c hc => (h.head c hc).2
  refine ⟨rfl, by rw [hgap]; exact ⟨rfl, rfl⟩, Or.inr fun cursor before => ?_⟩
  rw [Cursor.column_pass_newline]
  exact hcolumn

end Gaps

section Reading

variable {word text written passed rest : List Char} {indent least : Nat} {broken : Bool}

/-- A word is read, and plain text ends behind it or goes on behind a gap. -/
theorem readPlain_append (least : Nat) (hword : IsWord word) {cursor : Cursor} {after : List Char}
    (hcursor : cursor.rest = word ++ (passed ++ after))
    (hchunk : plainChunk false (passed ++ after) = ([], passed ++ after))
    (hafter : (plainGap (passed ++ after)).rest = after) (gap : List Char) (broken : Bool) :
    let found := plainGap (passed ++ after)
    let next := cursor.pass (word ++ passed) after
    readPlain false least cursor gap broken =
      if found.text.isEmpty || after.head? == some '#' || decide (next.column < least) then
        ⟨gap ++ word, next, found.broken⟩
      else
        let more := readPlain false least next found.text found.broken
        ⟨gap ++ word ++ more.text, more.cursor, more.broken⟩ := by
  obtain ⟨c, inner, rfl⟩ := List.exists_cons_of_ne_nil hword.nonempty
  have hread := hword.plainChunk_append hchunk
  rw [← hcursor] at hread
  have hhash : cursor.rest.head? ≠ some '#' := by
    rw [hcursor]
    exact hword.noHash
  have hmove : ((cursor.pass (c :: inner) (passed ++ after)).moveTo after) =
      cursor.pass (c :: inner ++ passed) after := by
    rw [Cursor.moveTo_eq rfl, Cursor.pass_pass]
  rw [readPlain]
  split
  · next heq => rw [hread] at heq; simp at heq
  · next c' chunk' after' heq =>
    rw [hread] at heq
    obtain ⟨⟨rfl, rfl⟩, rfl⟩ : (c = c' ∧ inner = chunk') ∧ passed ++ after = after' := by
      simpa using heq
    simp only [if_neg hhash, hafter, hmove, Bool.not_false, Bool.true_and]

/-- A word is read, and plain text goes on behind a gap. -/
theorem readPlain_append_of_more (hword : IsWord word) {cursor : Cursor} {after between : List Char}
    (hcursor : cursor.rest = word ++ (passed ++ after))
    (hchunk : plainChunk false (passed ++ after) = ([], passed ++ after))
    (hgap : plainGap (passed ++ after) = ⟨between, broken, after⟩) (hbetween : between ≠ [])
    (hhash : after.head? ≠ some '#') (hcolumn : least ≤ (cursor.pass (word ++ passed) after).column)
    (gap : List Char) (before : Bool) :
    readPlain false least cursor gap before =
      let more := readPlain false least (cursor.pass (word ++ passed) after) between broken
      ⟨gap ++ word ++ more.text, more.cursor, more.broken⟩ := by
  have hcontinues : ¬ (between.isEmpty || after.head? == some '#' ||
      decide ((cursor.pass (word ++ passed) after).column < least)) = true := by
    simp only [Bool.or_eq_true, List.isEmpty_iff, beq_iff_eq, decide_eq_true_eq, not_or]
    exact ⟨⟨hbetween, hhash⟩, by omega⟩
  have hread := readPlain_append least hword hcursor hchunk (by rw [hgap]) gap before
  rw [hgap] at hread
  rw [hread, if_neg hcontinues]

/-- Written plain text is read as the text, up to what ends it. -/
theorem readPlain_of_foldsTo (least : Nat) (h : FoldsTo indent text written) (hindent : 0 < indent)
    (hleast : least ≤ indent) (hends : EndsPlain least passed rest broken) {cursor : Cursor}
    (hcursor : cursor.rest = written ++ (passed ++ rest)) (hcolumn : least ≤ cursor.column + 1)
    (gap : List Char) (before : Bool) :
    readPlain false least cursor gap before =
      ⟨gap ++ text, cursor.pass (written ++ passed) rest, broken⟩ := by
  induction h generalizing cursor gap before with
  | @word word hword =>
    have hstops : ((plainGap (passed ++ rest)).text.isEmpty || rest.head? == some '#' ||
        decide ((cursor.pass (word ++ passed) rest).column < least)) = true := by
      rcases hends.stops with hnone | hlow
      · rw [hnone]
        rfl
      · rw [decide_eq_true (hlow cursor word), Bool.or_true]
    rw [readPlain_append least hword hcursor hends.chunk hends.gap.1, if_pos hstops, hends.gap.2]
  | @blanks word text written hword count hmore ih =>
    obtain ⟨c, more, hhead, hhash, hgap, hbreak⟩ := hmore.head_append (passed ++ rest)
    have hfound := plainGap_blanks hgap hbreak (count + 1) more
    rw [← hhead] at hfound
    have hnext : least ≤ (cursor.pass (word ++ List.replicate (count + 1) ' ')
        (written ++ (passed ++ rest))).column := by
      have hordinary : (word ++ List.replicate (count + 1) ' ').all isOrdinary = true := by
        rw [List.all_append, hword.ordinary, all_isOrdinary_replicate, Bool.and_self]
      rw [Cursor.column_pass hordinary (by simp [hword.noBreak]), List.length_append,
        List.length_replicate]
      omega
    rw [List.append_assoc, List.append_assoc] at hcursor
    rw [readPlain_append_of_more hword hcursor rfl hfound (by simp) (by simpa [hhead] using hhash)
      hnext gap before, ih rfl (by omega)]
    simp only [Cursor.pass_pass, List.append_assoc]
  | @line word text written hword hmore ih =>
    obtain ⟨c, more, hhead, hhash, hinner⟩ := hmore.head_append (passed ++ rest)
    have hmark := isDocumentMark_indentation hindent (written ++ (passed ++ rest))
    have hfound := plainGap_newline hmark
      (by simpa [hhead] using hinner)
    have hnext : least ≤ (cursor.pass (word ++ newline indent)
        (written ++ (passed ++ rest))).column := by
      rw [Cursor.column_pass_newline]
      exact hleast
    rw [List.append_assoc, List.append_assoc] at hcursor
    rw [readPlain_append_of_more hword hcursor rfl hfound (by simp) (by simpa [hhead] using hhash)
      hnext gap before, ih rfl (by omega)]
    simp

end Reading

end EnumLabels.Yaml
