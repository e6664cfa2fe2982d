import EnumLabels.Proofs.Yaml.Ordinary
import Mathlib.Tactic.SplitIfs

/-!
# Text between apostrophes is read back

A line end in the text is written as an empty line, so a run of them is written with one line end
more than it has. Of a run that is read, the first line end counts as a blank if it stands alone
and as nothing otherwise. What is left is the text: a folded blank for a single line end, and the
run for a longer one.
-/

namespace EnumLabels.Yaml

/-- What has been read before a text, given the character that was written last. Line ends follow
no blanks, the first of a run follows nothing else, and blanks follow blanks. -/
structure IsGapBefore (gap : QuotedGap) (before : Option Char) (text : List Char) : Prop where
  blank : ∀ rest, text = ' ' :: rest →
    ∃ blanks, gap = .blanks blanks ∧ (before ≠ some ' ' → blanks = [])
  lineFeed : ∀ rest, text = '\n' :: rest →
    if before = some '\n' then ∃ more, gap = .breaks (some '\n') ('\n' :: more) else gap = .none

/-- Before an ordinary text nothing has been read. -/
theorem isGapBefore_none {before : Option Char} (h : before ≠ some '\n') (text : List Char) :
    IsGapBefore .none before text where
  blank _ _ := ⟨[], rfl, fun _ => rfl⟩
  lineFeed _ _ := by rw [if_neg h]

section Reading

variable {rest : List Char} (gap : QuotedGap)

/-- Blanks at the start of a line do not count. -/
theorem readSingle?_indentation (first : Option Char) (more : List Char) (count : Nat) :
    readSingle? (.breaks first more) (List.replicate count ' ' ++ rest) =
      readSingle? (.breaks first more) rest := by
  induction count with
  | zero => rfl
  | succ count ih =>
    rw [List.replicate_succ, List.cons_append, readSingle?.eq_def]
    exact ih

/-- A line end is read as one more unless a document mark follows it. -/
theorem readSingle?_break (h : isDocumentMark rest = false) :
    readSingle? gap ('\n' :: rest) = readSingle? (gap.addBreak '\n') rest := by
  rw [readSingle?.eq_def]
  change (if isDocumentMark rest = true then _ else _) = _
  rw [if_neg (by simp [h])]

/-- A character that is neither a blank nor a line end nor an apostrophe is read as itself. -/
theorem readSingle?_char {c : Char} (hgap : isGap c = false) (hbreak : isBreak c = false)
    (hquote : c ≠ '\'') :
    readSingle? gap (c :: rest) = prepend (gap.text ++ [c]) (readSingle? .none rest) := by
  rw [readSingle?.eq_def]
  simp only [hgap, hbreak, hquote, if_false, Bool.false_eq_true]

/-- Two apostrophes are read as one. -/
theorem readSingle?_apostrophes :
    readSingle? gap ('\'' :: '\'' :: rest) =
      prepend (gap.text ++ ['\'']) (readSingle? .none rest) := by
  rw [readSingle?.eq_def]
  rfl

/-- One apostrophe ends the text. -/
theorem readSingle?_end (h : rest.head? ≠ some '\'') :
    readSingle? gap ('\'' :: rest) = some (gap.text, rest) := by
  cases rest with
  | nil => rfl
  | cons d after =>
    have hd : d ≠ '\'' := fun heq => h (congrArg some heq)
    rw [readSingle?, if_neg (by decide), if_neg (by decide), if_pos rfl]
    intro after' heq
    exact hd (List.cons.inj heq).1

end Reading

section Folds

variable {folds : Bool} {indent : Nat} {rest : List Char}

/-- A text is read from its folds whatever has been read before it. -/
def IsReadFromSingleFolds (folds : Bool) (indent : Nat) (rest text : List Char) : Prop :=
  ∀ gap before column, IsGapBefore gap before text →
    readSingle? gap (foldSingle folds indent column before text ++ '\'' :: rest) =
      some (gap.text ++ text, rest)

/-- A line feed is read from the end of an empty line. -/
theorem IsReadFromSingleFolds.cons_lineFeed {text : List Char} (hindent : 0 < indent)
    (hblank : text.head? ≠ some ' ') (h : IsReadFromSingleFolds folds indent rest text) :
    IsReadFromSingleFolds folds indent rest ('\n' :: text) := by
  intro gap before column hgap
  let after := (if text.head? = some '\n' then [] else List.replicate indent ' ') ++
    (foldSingle folds indent indent (some '\n') text ++ '\'' :: rest)
  have hmark : isDocumentMark after = false := by
    cases text with
    | nil => exact isDocumentMark_indentation hindent _
    | cons c text =>
      by_cases hc : c = '\n'
      · subst hc
        exact isDocumentMark_cons_eq_false (by decide) _
      · simp only [after, List.head?_cons, Option.some.injEq, hc, if_false]
        exact isDocumentMark_indentation hindent _
  have hread (more : List Char) :
      readSingle? (.breaks (some '\n') ('\n' :: more)) after =
        some ('\n' :: more ++ text, rest) := by
    have hafter : IsGapBefore (.breaks (some '\n') ('\n' :: more)) (some '\n') text :=
      ⟨fun _ heq => absurd (congrArg List.head? heq) hblank, fun _ _ => ⟨more, rfl⟩⟩
    simp only [after]
    split_ifs
    · exact h _ _ _ hafter
    · rw [readSingle?_indentation]
      exact h _ _ _ hafter
  have hfolds : foldSingle folds indent column before ('\n' :: text) ++ '\'' :: rest =
      (if before = some '\n' then ['\n'] else ['\n', '\n']) ++ after := by
    rw [foldSingle, if_neg (by decide), if_pos rfl, List.append_assoc, List.append_assoc]
  have hbefore := hgap.lineFeed text rfl
  rw [hfolds]
  split_ifs at hbefore ⊢
  · obtain ⟨more, rfl⟩ := hbefore
    rw [List.singleton_append, readSingle?_break _ hmark]
    change readSingle? (.breaks (some '\n') ('\n' :: (more ++ ['\n']))) after = _
    rw [hread]
    simp [QuotedGap.text, foldedText]
  · subst hbefore
    rw [List.cons_append, List.singleton_append,
      readSingle?_break _ (isDocumentMark_cons_eq_false (by decide) _), readSingle?_break _ hmark]
    exact hread []

/-- A blank is read from itself or from the end of a line. -/
theorem IsReadFromSingleFolds.cons_blank {text : List Char} (hindent : 0 < indent)
    (hfeed : text.head? ≠ some '\n') (h : IsReadFromSingleFolds folds indent rest text) :
    IsReadFromSingleFolds folds indent rest (' ' :: text) := by
  intro gap before column hgap
  have hno {gap : QuotedGap} {before : Option Char} (after : List Char)
      (heq : text = '\n' :: after) :
      if before = some '\n' then ∃ more, gap = .breaks (some '\n') ('\n' :: more)
      else gap = .none :=
    absurd (congrArg List.head? heq) hfeed
  obtain ⟨blanks, rfl, hblanks⟩ := hgap.blank text rfl
  rw [foldSingle, if_neg (by decide), if_neg (by decide)]
  split_ifs with hfolds
  · simp only [Bool.and_eq_true, bne_iff_ne] at hfolds
    obtain ⟨⟨⟨⟨-, hbefore⟩, -⟩, hblank⟩, -⟩ := hfolds
    obtain rfl := hblanks hbefore
    have hread := h (.breaks (some '\n') []) (some ' ') indent
      ⟨fun _ heq => absurd (congrArg List.head? heq) hblank, hno⟩
    rw [newline, List.cons_append, List.cons_append, List.append_assoc,
      readSingle?_break _ (isDocumentMark_indentation hindent _)]
    change readSingle? (.breaks (some '\n') []) _ = _
    rw [readSingle?_indentation, hread]
    rfl
  · have hread := h (.blanks (blanks ++ [' '])) (some ' ') (column + 1)
      ⟨fun _ _ => ⟨_, rfl, fun hne => absurd rfl hne⟩, hno⟩
    rw [List.cons_append, readSingle?.eq_def]
    change readSingle? (.blanks (blanks ++ [' '])) _ = _
    rw [hread]
    simp [QuotedGap.text]

/-- A printable character is read from itself or, if it is an apostrophe, from two of them. -/
theorem IsReadFromSingleFolds.cons_printable {text : List Char} {c : Char}
    (hordinary : isOrdinary c = true) (hblank : c ≠ ' ') (hfeed : c ≠ '\n')
    (h : IsReadFromSingleFolds folds indent rest text) :
    IsReadFromSingleFolds folds indent rest (c :: text) := by
  intro gap before column _
  have hread (column : Nat) :=
    h .none (some c) column (isGapBefore_none (by simpa using hfeed) text)
  rw [foldSingle]
  split_ifs with hquote hfolds
  · subst hquote
    rw [List.cons_append, List.cons_append, readSingle?_apostrophes, hread]
    simp [prepend, QuotedGap.text, QuotedGap.none]
  · simp [hblank] at hfolds
  · obtain ⟨hgap, hbreak⟩ := isGap_isBreak_eq_false hordinary hblank hfeed
    rw [List.cons_append, readSingle?_char gap hgap hbreak hquote, hread]
    simp [prepend, QuotedGap.text, QuotedGap.none]

/-- Text between apostrophes is read from its folds. -/
theorem isReadFromSingleFolds (hindent : 0 < indent) (hrest : rest.head? ≠ some '\'')
    {text : List Char} (hordinary : text.all isOrdinary = true)
    (hloose : hasBlankAtBreak text = false) : IsReadFromSingleFolds folds indent rest text := by
  induction text with
  | nil =>
    intro gap before column _
    rw [foldSingle, List.nil_append, readSingle?_end gap hrest, List.append_nil]
  | cons c text ih =>
    rw [List.all_cons, Bool.and_eq_true] at hordinary
    have hsafe : hasBlankAtBreak text = false ∧ (c = ' ' → text.head? ≠ some '\n') ∧
        (c = '\n' → text.head? ≠ some ' ') := by
      cases text with
      | nil => simp [hasBlankAtBreak]
      | cons d text =>
        simp only [hasBlankAtBreak, Bool.or_eq_false_iff] at hloose
        refine ⟨hloose.2, ?_, ?_⟩
        · rintro rfl heq
          obtain rfl := Option.some.inj heq
          exact absurd hloose.1.1 (by decide)
        · rintro rfl heq
          obtain rfl := Option.some.inj heq
          exact absurd hloose.1.2 (by decide)
    obtain ⟨hmore, hafterBlank, hafterFeed⟩ := hsafe
    have hread := ih hordinary.2 hmore
    by_cases hblank : c = ' '
    · subst hblank
      exact hread.cons_blank hindent (hafterBlank rfl)
    · by_cases hfeed : c = '\n'
      · subst hfeed
        exact hread.cons_lineFeed hindent (hafterFeed rfl)
      · exact hread.cons_printable hordinary.1 hblank hfeed

end Folds

/-- Text between apostrophes is written with ordinary characters. -/
theorem all_isOrdinary_foldSingle (folds : Bool) (indent column : Nat) (before : Option Char)
    {text : List Char} (h : text.all isOrdinary = true) :
    (foldSingle folds indent column before text).all isOrdinary = true := by
  induction text generalizing column before with
  | nil => rfl
  | cons c text ih =>
    rw [List.all_cons, Bool.and_eq_true] at h
    rw [foldSingle]
    split_ifs <;>
      simp only [List.all_append, List.all_cons, List.all_nil, all_isOrdinary_newline,
        all_isOrdinary_replicate, h.1, ih _ _ h.2, Bool.and_self] <;>
      rfl

/-- On one line nothing is folded, and at most every character is doubled. -/
theorem noBreak_length_foldSingle (indent column : Nat) (before : Option Char) {text : List Char}
    (hline : '\n' ∉ text) :
    '\n' ∉ foldSingle false indent column before text ∧
      (foldSingle false indent column before text).length ≤ 2 * text.length := by
  induction text generalizing column before with
  | nil => simp [foldSingle]
  | cons c text ih =>
    rw [List.mem_cons, not_or] at hline
    rw [foldSingle, if_neg (Ne.symm hline.1)]
    simp only [Bool.false_and, Bool.false_eq_true, if_false]
    split_ifs
    · obtain ⟨hrest, hlength⟩ := ih (column + 2) (some c) hline.2
      refine ⟨by simp [hrest], ?_⟩
      simp only [List.length_cons]
      omega
    · obtain ⟨hrest, hlength⟩ := ih (column + 1) (some c) hline.2
      refine ⟨by simp [hrest, hline.1], ?_⟩
      simp only [List.length_cons]
      omega

/-- Text between apostrophes is what was written there. -/
theorem readSingle?_written {indent : Nat} (hindent : 0 < indent) (folds : Bool) (column : Nat)
    {text rest : List Char} (hsafe : isSafeSingle text = true) (hrest : rest.head? ≠ some '\'') :
    readSingle? .none (foldSingle folds indent column none text ++ ['\''] ++ rest) =
      some (text, rest) := by
  rw [isSafeSingle, Bool.and_eq_true, Bool.not_eq_true'] at hsafe
  rw [List.append_assoc, List.singleton_append]
  exact isReadFromSingleFolds hindent hrest hsafe.1 hsafe.2 .none none column
    (isGapBefore_none (by simp) text)

end EnumLabels.Yaml
