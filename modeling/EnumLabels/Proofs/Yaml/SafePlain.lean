import EnumLabels.Proofs.Yaml.PlainText
import EnumLabels.Yaml.Token
import Mathlib.Data.List.Basic
import Mathlib.Data.List.TakeWhile

/-!
# Safe plain text

Text that can be written plain is a line of words: it has no line ends, starts and ends with no
blank, and no word starts with a hash sign or ends with a colon. Folding keeps it so. Its first
characters are not taken for punctuation either, with whatever text behind it.
-/

namespace EnumLabels.Yaml

/-- A line of words, whatever stands before it. -/
structure IsWords (text : List Char) : Prop where
  nonempty : text ≠ []
  ordinary : text.all isOrdinary = true
  noBreak : '\n' ∉ text
  first : text.head? ≠ some ' '
  last : text.getLast? ≠ some ' '
  noPunctuation : hasPunctuation true text = false

/-- No indicator is a dash, a question mark, a colon or a digit. -/
theorem of_mem_indicators {c : Char} (h : c ∈ indicators) :
    c ≠ '-' ∧ c ≠ '?' ∧ c ≠ ':' ∧ c.isDigit = false := by
  have hall : indicators.all (fun c => c != '-' && c != '?' && c != ':' && !c.isDigit) = true := rfl
  simpa [and_assoc] using List.all_eq_true.mp hall c h

section Punctuation

variable {word more : List Char} {afterBlank : Bool}

/-- Behind a blank there is no punctuation unless there is some in the whole text. -/
theorem hasPunctuation_behindBlank (h : hasPunctuation afterBlank (word ++ ' ' :: more) = false) :
    hasPunctuation true more = false := by
  induction word generalizing afterBlank with
  | nil =>
    rw [List.nil_append, hasPunctuation, Bool.or_eq_false_iff] at h
    exact h.2
  | cons c word ih =>
    rw [List.cons_append, hasPunctuation, Bool.or_eq_false_iff] at h
    exact ih h.2

/-- A word before a blank or the end does not end with a colon. -/
theorem getLast?_ne_colon (hmore : startsBlank more = true)
    (h : hasPunctuation afterBlank (word ++ more) = false) : word.getLast? ≠ some ':' := by
  induction word generalizing afterBlank with
  | nil => simp
  | cons c word ih =>
    rw [List.cons_append, hasPunctuation, Bool.or_eq_false_iff, Bool.or_eq_false_iff] at h
    cases word with
    | nil =>
      rintro heq
      obtain rfl : c = ':' := by simpa using heq
      rw [List.nil_append, hmore] at h
      exact absurd h.1.1 (by decide)
    | cons d word =>
      rw [List.getLast?_cons_cons]
      exact ih h.2

/-- Text without colons and hash signs has no punctuation. -/
theorem hasPunctuation_eq_false (hcolon : ':' ∉ word) (hhash : '#' ∉ word) :
    hasPunctuation afterBlank word = false := by
  induction word generalizing afterBlank with
  | nil => rfl
  | cons c word ih =>
    rw [List.mem_cons, not_or] at hcolon hhash
    rw [hasPunctuation, beq_eq_false_iff_ne.mpr (Ne.symm hcolon.1),
      beq_eq_false_iff_ne.mpr (Ne.symm hhash.1), ih hcolon.2 hhash.2]
    rfl

end Punctuation

section Folds

variable {folds afterSpace : Bool} {indent column : Nat} {word text more : List Char}

/-- Words are written as they are. -/
theorem foldPlain_append (hword : ' ' ∉ word) (hne : word ≠ []) :
    foldPlain folds indent column afterSpace (word ++ more) =
      word ++ foldPlain folds indent (column + word.length) false more := by
  induction word generalizing column afterSpace with
  | nil => contradiction
  | cons c word ih =>
    rw [List.mem_cons, not_or] at hword
    have hblank : (c == ' ') = false := beq_eq_false_iff_ne.mpr (Ne.symm hword.1)
    rw [List.cons_append, foldPlain, hblank, Bool.and_false, Bool.false_and, Bool.false_and,
      Bool.false_and, if_neg Bool.false_ne_true]
    cases word with
    | nil => rfl
    | cons d word =>
      rw [ih hword.2 (by simp)]
      simp [Nat.add_assoc, Nat.add_comm]

/-- Blanks behind a blank are written as they are. -/
theorem foldPlain_blanks (count : Nat) :
    foldPlain folds indent column true (List.replicate count ' ' ++ more) =
      List.replicate count ' ' ++ foldPlain folds indent (column + count) true more := by
  induction count generalizing column with
  | zero => rfl
  | succ count ih =>
    rw [List.replicate_succ, List.cons_append, foldPlain, if_neg (by simp)]
    change ' ' :: foldPlain folds indent (column + 1) true _ = _
    rw [ih, List.cons_append, Nat.add_assoc, Nat.add_comm 1]

/-- Without folding, plain text is written as it is. -/
theorem foldPlain_false (text : List Char) :
    foldPlain false indent column afterSpace text = text := by
  induction text generalizing column afterSpace with
  | nil => rfl
  | cons c text ih =>
    rw [foldPlain, Bool.false_and, Bool.false_and, Bool.false_and, Bool.false_and,
      if_neg Bool.false_ne_true, ih]

/-- A text starts with blanks and goes on with something else. -/
theorem exists_eq_replicate_append (text : List Char) :
    ∃ count more, text = List.replicate count ' ' ++ more ∧ more.head? ≠ some ' ' := by
  induction text with
  | nil => exact ⟨0, [], rfl, by simp⟩
  | cons c text ih =>
    by_cases hc : c = ' '
    · obtain ⟨count, more, rfl, hmore⟩ := ih
      exact ⟨count + 1, more, by rw [hc, List.replicate_succ, List.cons_append], hmore⟩
    · exact ⟨0, c :: text, rfl, by simpa using hc⟩

/-- What stands before the first blank of a line of words is a word. -/
theorem IsWords.isWord (h : IsWords (word ++ more)) (hblank : ' ' ∉ word)
    (hmore : startsBlank more = true) (hne : word ≠ []) : IsWord word where
  nonempty := hne
  ordinary := by
    have hordinary := h.ordinary
    rw [List.all_append, Bool.and_eq_true] at hordinary
    exact hordinary.1
  noBlank := hblank
  noBreak := fun hmem => h.noBreak (List.mem_append_left _ hmem)
  noHash := by
    obtain ⟨c, rest, rfl⟩ := List.exists_cons_of_ne_nil hne
    have hfirst := h.noPunctuation
    rw [List.cons_append, hasPunctuation, Bool.or_eq_false_iff, Bool.or_eq_false_iff,
      Bool.and_true] at hfirst
    simpa using hfirst.1.2
  noColon := getLast?_ne_colon hmore h.noPunctuation

/-- What stands behind a word and some blanks is a line of words. -/
theorem IsWords.behindBlanks {count : Nat}
    (h : IsWords (word ++ (List.replicate (count + 1) ' ' ++ more))) (hne : more ≠ [])
    (hfirst : more.head? ≠ some ' ') : IsWords more where
  nonempty := hne
  ordinary := by
    have hordinary := h.ordinary
    rw [List.all_append, List.all_append, Bool.and_eq_true, Bool.and_eq_true] at hordinary
    exact hordinary.2.2
  noBreak := fun hmem => h.noBreak (List.mem_append_right _ (List.mem_append_right _ hmem))
  first := hfirst
  last := by
    have hlast := h.last
    rwa [List.getLast?_append_of_ne_nil _ (by simp), List.getLast?_append_of_ne_nil _ hne] at hlast
  noPunctuation := by
    have hnone := h.noPunctuation
    have htext : word ++ (List.replicate (count + 1) ' ' ++ more) =
        (word ++ List.replicate count ' ') ++ ' ' :: more := by
      rw [List.replicate_succ', List.append_assoc, List.append_assoc, List.singleton_append]
    rw [htext] at hnone
    exact hasPunctuation_behindBlank hnone

/-- A line of words starts with a word, and blanks and further words may follow it. -/
theorem IsWords.split (h : IsWords text) :
    IsWord text ∨ ∃ word count more, text = word ++ (List.replicate (count + 1) ' ' ++ more) ∧
      IsWord word ∧ IsWords more := by
  have hsplit := List.takeWhile_append_dropWhile (p := (· != ' ')) (l := text)
  generalize hword : text.takeWhile (· != ' ') = word at hsplit
  have hblank : ' ' ∉ word := by
    rw [← hword]
    intro hmem
    exact absurd (List.mem_takeWhile_imp hmem) (by decide)
  have hne : word ≠ [] := by
    obtain ⟨c, rest, rfl⟩ := List.exists_cons_of_ne_nil h.nonempty
    have hc : c ≠ ' ' := fun heq => h.first (by rw [heq]; rfl)
    rw [← hword, List.takeWhile_cons_of_pos (by simpa using hc)]
    simp
  cases hrest : text.dropWhile (· != ' ') with
  | nil =>
    rw [hrest, List.append_nil] at hsplit
    subst hsplit
    left
    have hwords : IsWords (word ++ []) := by rwa [List.append_nil]
    exact hwords.isWord hblank rfl hne
  | cons c rest =>
    have hc : c = ' ' := by
      have hdrop := List.head?_dropWhile_not (· != ' ') text
      rw [hrest] at hdrop
      simpa using hdrop
    subst hc
    obtain ⟨count, more, rfl, hfirst⟩ := exists_eq_replicate_append rest
    rw [hrest, ← List.cons_append, ← List.replicate_succ] at hsplit
    subst hsplit
    right
    refine ⟨word, count, more, rfl, h.isWord hblank rfl hne, h.behindBlanks ?_ hfirst⟩
    rintro rfl
    apply h.last
    rw [List.append_nil, List.replicate_succ', ← List.append_assoc, List.getLast?_concat]

/-- Folded text is a line of words that may have been broken at a single blank. -/
theorem foldsTo_foldPlain (h : IsWords text) (folds afterSpace : Bool) (indent column : Nat) :
    FoldsTo indent text (foldPlain folds indent column afterSpace text) := by
  induction hlength : text.length using Nat.strongRecOn generalizing text column afterSpace with
  | ind length ih =>
    rcases h.split with hword | ⟨word, count, more, rfl, hword, hmore⟩
    · have hwritten : foldPlain folds indent column afterSpace (text ++ []) =
          text ++ foldPlain folds indent (column + text.length) false [] :=
        foldPlain_append hword.noBlank hword.nonempty
      rw [List.append_nil, foldPlain, List.append_nil] at hwritten
      rw [hwritten]
      exact FoldsTo.word hword
    · have hshorter : more.length < length := by
        rw [← hlength, List.length_append, List.length_append, List.length_replicate]
        omega
      rw [foldPlain_append hword.noBlank hword.nonempty, List.replicate_succ, List.cons_append,
        foldPlain]
      split_ifs with hfolds
      · -- the line ends only at a blank between two words, so it was a single one
        have hcount : count = 0 := by
          simp only [Bool.and_eq_true, bne_iff_ne] at hfolds
          cases count with
          | zero => rfl
          | succ count => exact absurd rfl hfolds.1.2
        subst hcount
        exact FoldsTo.line hword (ih _ hshorter hmore _ _ rfl)
      · change FoldsTo indent _ (word ++ ' ' :: foldPlain folds indent _ true _)
        rw [foldPlain_blanks]
        exact FoldsTo.blanks hword count (ih _ hshorter hmore _ _ rfl)

/-- Folded text is ordinary. -/
theorem all_isOrdinary_foldPlain (h : text.all isOrdinary = true) :
    (foldPlain folds indent column afterSpace text).all isOrdinary = true := by
  induction text generalizing column afterSpace with
  | nil => rfl
  | cons c text ih =>
    rw [List.all_cons, Bool.and_eq_true] at h
    rw [foldPlain]
    split_ifs <;>
      simp only [List.all_append, List.all_cons, all_isOrdinary_newline, h.1, ih h.2, Bool.and_self]

/-- What folded text starts with, the text starts with too. -/
theorem prefix_of_prefix_foldPlain {first : List Char} {d : Char} (hfeed : '\n' ∉ first)
    (hd : d ∉ first) (h : first <+: foldPlain folds indent column afterSpace text ++ d :: more) :
    first <+: text := by
  induction first generalizing column afterSpace text with
  | nil => exact List.nil_prefix
  | cons e first ih =>
    rw [List.mem_cons, not_or] at hfeed hd
    cases text with
    | nil => exact absurd (List.cons_prefix_cons.mp h).1.symm hd.1
    | cons c text =>
      rw [foldPlain] at h
      split_ifs at h
      · exact absurd (List.cons_prefix_cons.mp h).1.symm hfeed.1
      · obtain ⟨rfl, hrest⟩ := List.cons_prefix_cons.mp h
        exact List.cons_prefix_cons.mpr ⟨rfl, ih hfeed.2 hd.2 hrest⟩

end Folds

section Safe

variable {text : List Char}

/-- Safe text is a line of words. -/
theorem isWords_of_isSafePlain (h : isSafePlain text = true) (hne : text ≠ []) : IsWords text := by
  simp only [isSafePlain, Bool.and_eq_true, Bool.not_eq_true'] at h
  obtain ⟨⟨⟨hloose, hpunctuation⟩, hbreak⟩, hordinary⟩ := h
  rw [hasLooseEnds, Bool.or_eq_false_iff] at hloose
  obtain ⟨c, rest, rfl⟩ := List.exists_cons_of_ne_nil hne
  simp only [looksLikePunctuation, Bool.or_eq_false_iff, Bool.and_eq_false_iff] at hpunctuation
  obtain ⟨-, ⟨hindicator, hstart⟩, hinner⟩ := hpunctuation
  refine ⟨hne, hordinary, ?_, ?_, ?_, ?_⟩
  · intro hmem
    have hfeed : isBreak '\n' = true := rfl
    rw [List.any_eq_false] at hbreak
    exact hbreak _ hmem hfeed
  · intro hblank
    rw [hblank] at hloose
    exact absurd hloose.1 (by decide)
  · intro hblank
    rw [hblank] at hloose
    exact absurd hloose.2 (by decide)
  · have hhash : (c == '#') = false := by
      rw [beq_eq_false_iff_ne]
      rintro rfl
      exact absurd hindicator (by decide)
    have hcolon : (c == ':' && startsBlank rest) = false := by
      rw [Bool.and_eq_false_iff]
      rcases hstart with hnone | hnone
      · exact Or.inl hnone.1.2
      · exact Or.inr hnone
    rw [hasPunctuation, hcolon, hhash, hinner]
    rfl

/-- Safe text is no document mark, however it is folded and whatever ends it. -/
theorem isDocumentMark_foldPlain {d : Char} (hd : d ≠ '-' ∧ d ≠ '.') (h : isSafePlain text = true)
    (folds afterSpace : Bool) (indent column : Nat) (more : List Char) :
    isDocumentMark (foldPlain folds indent column afterSpace text ++ d :: more) = false := by
  have hmark (m : Char) (hm : m ≠ '\n') (hdm : d ≠ m)
      (hmarked : ([m, m, m].isPrefixOf text) = false) :
      ((foldPlain folds indent column afterSpace text ++ d :: more).take 3 == [m, m, m]) =
        false := by
    rw [beq_eq_false_iff_ne]
    intro heq
    have hfirst : [m, m, m] <+: foldPlain folds indent column afterSpace text ++ d :: more := by
      rw [← heq]
      exact List.take_prefix _ _
    have htext := prefix_of_prefix_foldPlain (by simpa using hm.symm) (by simpa using hdm) hfirst
    rw [List.isPrefixOf_iff_prefix.mpr htext] at hmarked
    contradiction
  simp only [isSafePlain, Bool.and_eq_true, Bool.not_eq_true'] at h
  have hpunctuation := h.1.1.2
  simp only [looksLikePunctuation, Bool.or_eq_false_iff] at hpunctuation
  rw [isDocumentMark, hmark '-' (by decide) hd.1 hpunctuation.1.1,
    hmark '.' (by decide) hd.2 hpunctuation.1.2]
  rfl

/-- A text that does not start with a blank keeps its first character, and so it does not start
with a blank when it is folded. -/
theorem atSpace_foldPlain (h : startsBlank text = false) (folds afterSpace : Bool)
    (indent column : Nat) (more : List Char) :
    atSpace (foldPlain folds indent column afterSpace text ++ more) = false := by
  cases text with
  | nil => contradiction
  | cons d text =>
    simp only [startsBlank, isSpaceOrBreak, Bool.or_eq_false_iff] at h
    obtain ⟨-, ⟨⟨hblank, htab⟩, -⟩, hbreak⟩ := h
    rw [foldPlain, hblank, Bool.and_false, Bool.false_and, Bool.false_and, Bool.false_and,
      if_neg Bool.false_ne_true, List.cons_append, atSpace, isGap, hblank, htab, hbreak]
    rfl

/-- A reader takes the first character of safe text for the start of plain text. -/
theorem startsPlain_foldPlain (h : isSafePlain text = true) (hne : text ≠ [])
    (folds afterSpace : Bool) (indent column : Nat) (more : List Char) :
    ∃ c rest, foldPlain folds indent column afterSpace text ++ more = c :: rest ∧
      Lexer.startsPlain false c rest = true := by
  have hwords := isWords_of_isSafePlain h hne
  obtain ⟨c, rest, rfl⟩ := List.exists_cons_of_ne_nil hne
  have hblank : c ≠ ' ' := fun heq => hwords.first (by rw [heq]; rfl)
  have hfeed : c ≠ '\n' := fun heq => hwords.noBreak (by rw [heq]; exact List.mem_cons_self)
  obtain ⟨hgap, hbreak⟩ := isGap_isBreak_eq_false
    (List.all_eq_true.mp hwords.ordinary c List.mem_cons_self) hblank hfeed
  simp only [isSafePlain, looksLikePunctuation, Bool.and_eq_true, Bool.not_eq_true',
    Bool.or_eq_false_iff, Bool.and_eq_false_iff] at h
  obtain ⟨⟨⟨-, -, ⟨hindicator, hstart⟩, -⟩, -⟩, -⟩ := h
  have hwritten : foldPlain folds indent column afterSpace (c :: rest) =
      c :: foldPlain folds indent (column + 1) false rest := by
    rw [foldPlain, beq_eq_false_iff_ne.mpr hblank, Bool.and_false, Bool.false_and, Bool.false_and,
      Bool.false_and, if_neg Bool.false_ne_true]
  refine ⟨c, foldPlain folds indent (column + 1) false rest ++ more, by rw [hwritten]; rfl, ?_⟩
  have hspace (hc : c = '?' ∨ c = ':' ∨ c = '-') :
      atSpace (foldPlain folds indent (column + 1) false rest ++ more) = false := by
    refine atSpace_foldPlain (hstart.resolve_left ?_) _ _ _ _ _
    rcases hc with rfl | rfl | rfl <;> simp
  unfold Lexer.startsPlain
  split_ifs with hdash hother
  · rw [hspace (Or.inr (Or.inr hdash))]
    rfl
  · rw [hspace (by tauto)]
    rfl
  · rw [hgap, hbreak, hindicator]
    rfl

end Safe

end EnumLabels.Yaml
