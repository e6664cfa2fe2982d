import EnumLabels.Proofs.Text.CodeString
import EnumLabels.Proofs.Yaml.Ordinary
import Mathlib.Tactic.SplitIfs

/-!
# Text between double quotes is read back

A character is read back from its escape or from itself. A folded line end behind a backslash
counts as nothing, and a blank that starts the new line is protected by a backslash of its own.

At an indentation past the width a blank behind a folded escape is folded once more. The backslash
that protects it and the one that hides the second line end are then read as an escaped backslash,
and the line end as a blank. `overfold` states what is read from such a narrow place.
-/

namespace EnumLabels.Yaml

/-- What is read between a character and the rest of a text that both stand at a narrow place: a
backslash and a blank if the character is an inner escape and an inner blank follows it. -/
def strayGap (narrow first : Bool) (c : Char) (rest : List Char) : List Char :=
  if narrow && !first && (escape? c.toNat).isSome && rest.head? == some ' ' && 1 < rest.length then
    ['\\', ' ']
  else []

/-- The characters that are read from where characters are written between double quotes. -/
def overfold (narrow first : Bool) : List Char → List Char
  | [] => []
  | c :: rest => c :: (strayGap narrow first c rest ++ overfold narrow false rest)

/-- Nothing strays in where there is room. -/
@[simp] theorem overfold_false (first : Bool) (text : List Char) :
    overfold false first text = text := by
  induction text generalizing first with
  | nil => rfl
  | cons c rest ih => rw [overfold, ih, strayGap, Bool.false_and, Bool.false_and]; rfl

/-- Between an inner escape and a blank something strays in at a narrow place. -/
theorem overfold_blank {c : Char} (hescape : (escape? c.toNat).isSome = true) (narrow : Bool)
    (after : List Char) :
    overfold narrow false (c :: ' ' :: after) =
      c :: ((if narrow && !after.isEmpty then ['\\', ' '] else []) ++
        ' ' :: overfold narrow false after) := by
  have hplain : escape? 32 = none := rfl
  cases after <;> simp [overfold, strayGap, hescape, hplain]

/-- Before a character that is no blank nothing strays in. -/
theorem overfold_of_ne {d : Char} (hd : d ≠ ' ') (narrow first : Bool) (c : Char)
    (after : List Char) :
    overfold narrow first (c :: d :: after) = c :: overfold narrow false (d :: after) := by
  rw [overfold, strayGap, if_neg (by simp [hd]), List.nil_append]

section Characters

variable {rest : List Char} (gap : QuotedGap)

/-- Hexadecimal digits of a code point are read as the code point. -/
theorem hexPoint_hexDigits (width : Nat) {n : Nat} (hwidth : n < 16 ^ width) (hn : n < 0x110000) :
    hexPoint (Text.hexDigits .upper width n) = .ok n := by
  have hlength : (Text.hexDigits .upper width n).length = width := by
    clear hwidth hn
    induction width generalizing n with
    | zero => rfl
    | succ width ih => simp [Text.hexDigits, ih]
  have hread := Text.readHex?_hexDigits .upper hwidth []
  rw [List.append_nil] at hread
  have hlarge : ¬ 0x80000000 ≤ n := by omega
  have hpoint : ¬ 0x10FFFF < n := by omega
  simp only [hexPoint, hlength, hread, hlarge, hpoint, if_false]

/-- What a letter behind a backslash denotes, unless digits follow it. -/
theorem readDouble_backslash {e : Char} (hx : e ≠ 'x') (hu : e ≠ 'u') (hU : e ≠ 'U') :
    readDouble gap ('\\' :: e :: rest) =
      match readEscape? e with
      | some d => prependPoints gap d.toNat (readDouble .none rest)
      | none =>
        if isBreak e && !isDocumentMark rest then
          prependPoints gap none (readDouble (.breaks none []) rest)
        else .error .malformed := by
  cases hescape : readEscape? e <;> simp [readDouble, isGap, isBreak, hx, hu, hU, hescape]

/-- The short escapes are read as the characters for which they stand. -/
theorem readEscape?_of_mem : ∀ p ∈ shortEscapes,
    readEscape? p.2 = some p.1 ∧ p.2 ≠ 'x' ∧ p.2 ≠ 'u' ∧ p.2 ≠ 'U' := by
  decide

/-- An escape is read as the code point for which it stands. -/
theorem readDouble_escape {n : Nat} (hn : n < 0x110000) {e : List Char} (h : escape? n = some e) :
    readDouble gap (e ++ rest) = prependPoints gap n (readDouble .none rest) := by
  unfold escape? at h
  split at h
  · next p hfound =>
    obtain rfl := Option.some.inj h
    have hcode : p.1.toNat = n := by simpa using List.find?_some hfound
    obtain ⟨hread, hx, hu, hU⟩ := readEscape?_of_mem p (List.mem_of_find?_eq_some hfound)
    rw [List.cons_append, List.singleton_append, readDouble_backslash gap hx hu hU, hread, ← hcode]
  · split_ifs at h with hprintable hbyte hshort
    · obtain rfl := Option.some.inj h
      obtain ⟨a, b, hdigits⟩ : ∃ a b, Text.hexDigits .upper 2 n = [a, b] := ⟨_, _, rfl⟩
      have hpoint := hexPoint_hexDigits 2 hbyte hn
      rw [hdigits] at hpoint ⊢
      change readDouble gap ('\\' :: 'x' :: a :: b :: rest) = _
      rw [readDouble, if_neg (by decide), if_neg (by decide), if_neg (by decide), if_pos rfl]
      simp only [hpoint]
    · obtain rfl := Option.some.inj h
      obtain ⟨a, b, c, d, hdigits⟩ : ∃ a b c d, Text.hexDigits .upper 4 n = [a, b, c, d] :=
        ⟨_, _, _, _, rfl⟩
      have hpoint := hexPoint_hexDigits 4 hshort hn
      rw [hdigits] at hpoint ⊢
      change readDouble gap ('\\' :: 'u' :: a :: b :: c :: d :: rest) = _
      rw [readDouble, if_neg (by decide), if_neg (by decide), if_neg (by decide), if_pos rfl]
      simp only [hpoint]
    · obtain rfl := Option.some.inj h
      obtain ⟨a, b, c, d, a', b', c', d', hdigits⟩ : ∃ a b c d a' b' c' d',
          Text.hexDigits .upper 8 n = [a, b, c, d, a', b', c', d'] :=
        ⟨_, _, _, _, _, _, _, _, rfl⟩
      have hpoint := hexPoint_hexDigits 8 (by omega) hn
      rw [hdigits] at hpoint ⊢
      change readDouble gap ('\\' :: 'U' :: a :: b :: c :: d :: a' :: b' :: c' :: d' :: rest) = _
      rw [readDouble, if_neg (by decide), if_neg (by decide), if_neg (by decide), if_pos rfl]
      simp only [hpoint]

/-- An escape has a backslash and at least one more character. -/
theorem escape?_eq_cons {n : Nat} {e : List Char} (h : escape? n = some e) :
    ∃ c more, e = '\\' :: c :: more := by
  unfold escape? at h
  split at h
  · exact ⟨_, _, (Option.some.inj h).symm⟩
  · split_ifs at h <;> exact ⟨_, _, (Option.some.inj h).symm⟩

/-- A character without an escape is printable ASCII, and neither a double quote nor a
backslash. -/
theorem of_escape?_eq_none {c : Char} (h : escape? c.toNat = none) :
    isOrdinary c = true ∧ c ≠ '\n' ∧ c ≠ '"' ∧ c ≠ '\\' := by
  have hne (d : Char) (hd : (escape? d.toNat).isSome = true) : c ≠ d := by
    rintro rfl
    rw [h] at hd
    contradiction
  refine ⟨?_, hne '\n' rfl, hne '"' rfl, hne '\\' rfl⟩
  unfold escape? at h
  split at h
  · contradiction
  · split_ifs at h with hprintable
    exact isOrdinary_iff.mpr (Or.inr hprintable)

/-- A character without an escape that is no blank is read as itself. -/
theorem readDouble_char {c : Char} (h : escape? c.toNat = none) (hblank : c ≠ ' ') :
    readDouble gap (c :: rest) = prependPoints gap c.toNat (readDouble .none rest) := by
  obtain ⟨hordinary, hfeed, hquote, hbackslash⟩ := of_escape?_eq_none h
  obtain ⟨hgap, hbreak⟩ := isGap_isBreak_eq_false hordinary hblank hfeed
  rw [readDouble.eq_def]
  simp only [hgap, hbreak, hquote, hbackslash, if_false, Bool.false_eq_true]

/-- A blank lies between the characters before and behind it. -/
theorem readDouble_blank (blanks : List Char) :
    readDouble (.blanks blanks) (' ' :: rest) = readDouble (.blanks (blanks ++ [' '])) rest := by
  rw [readDouble.eq_def]
  rfl

/-- A protected blank is read as a blank. -/
theorem readDouble_protected :
    readDouble gap ('\\' :: ' ' :: rest) = prependPoints gap ' '.toNat (readDouble .none rest) :=
  readDouble_backslash gap (by decide) (by decide) (by decide)

/-- Blanks at the start of a line do not count. -/
theorem readDouble_indentation (first : Option Char) (more : List Char) (count : Nat) :
    readDouble (.breaks first more) (List.replicate count ' ' ++ rest) =
      readDouble (.breaks first more) rest := by
  induction count with
  | zero => rfl
  | succ count ih =>
    rw [List.replicate_succ, List.cons_append, readDouble.eq_def]
    exact ih

/-- A line end behind a backslash counts as nothing. -/
theorem readDouble_hiddenBreak {indent : Nat} (hindent : 0 < indent) :
    readDouble gap ('\\' :: (newline indent ++ rest)) =
      prependPoints gap none (readDouble (.breaks none []) rest) := by
  have hbreak : isBreak '\n' = true := rfl
  rw [newline, List.cons_append, readDouble_backslash gap (by decide) (by decide) (by decide),
    hbreak, isDocumentMark_indentation hindent]
  change prependPoints gap none _ = _
  rw [readDouble_indentation]

/-- A line end with an indentation behind it counts as a blank. -/
theorem readDouble_break {indent : Nat} (hindent : 0 < indent) :
    readDouble .none (newline indent ++ rest) = readDouble (.breaks (some '\n') []) rest := by
  rw [newline, List.cons_append, readDouble.eq_def]
  change (if isDocumentMark _ = true then _ else _) = _
  rw [isDocumentMark_indentation hindent, if_neg Bool.false_ne_true]
  exact readDouble_indentation _ _ _

/-- A hidden line end makes no difference to what is no blank. -/
theorem readDouble_behindHiddenBreak {text : List Char}
    (h : ∀ c ∈ text.head?, isGap c = false ∧ isBreak c = false) :
    readDouble (.breaks none []) text = readDouble .none text := by
  cases text with
  | nil => rfl
  | cons c more =>
    obtain ⟨hgap, hbreak⟩ := h c rfl
    rw [readDouble.eq_def, readDouble.eq_def .none]
    simp only [hgap, hbreak, if_false, Bool.false_eq_true]
    rfl

end Characters

/-- Whether an indentation leaves no room for text that is folded. -/
def isNarrow (folds : Bool) (indent : Nat) : Bool := folds && decide (width ≤ indent)

/-- The characters of a text are read from every place at which it can be written between double
quotes, behind blanks that have been read. -/
def IsReadFromFolds (folds : Bool) (indent : Nat) (rest text : List Char) : Prop :=
  ∀ column first afterEscape blanks, indent ≤ column →
    readDouble (.blanks blanks)
        (foldDouble folds indent column first afterEscape (text.map Char.toNat) ++ '"' :: rest) =
      .ok ((blanks ++ overfold (isNarrow folds indent) first text).map Char.toNat, rest)

section Folds

variable {folds : Bool} {indent column : Nat} {rest : List Char} {c : Char} {more : List Char}

/-- A folded line end that no blank follows is the one behind a backslash. -/
theorem foldedBreak_false (indent : Nat) : foldedBreak indent false = '\\' :: newline indent :=
  List.append_nil _

/-- A folded line end that a blank follows protects the blank. -/
theorem foldedBreak_true (indent : Nat) :
    foldedBreak indent true = '\\' :: (newline indent ++ ['\\']) := rfl

/-- Written text does not start with a blank unless the text does. -/
theorem head_foldDouble (hc : c ≠ ' ') (first afterEscape : Bool) (after : List Char) :
    ∀ d ∈ (foldDouble folds indent column first afterEscape ((c :: more).map Char.toNat) ++
      after).head?, isGap d = false ∧ isBreak d = false := by
  rw [List.map_cons, foldDouble]
  intro d hd
  cases hescape : escape? c.toNat with
  | some e =>
    obtain ⟨letter, digits, rfl⟩ := escape?_eq_cons hescape
    simp only [hescape, List.cons_append] at hd
    split at hd
    · obtain rfl := Option.some.inj hd
      decide
    · obtain rfl := Option.some.inj hd
      decide
  | none =>
    obtain ⟨hordinary, hfeed, -, -⟩ := of_escape?_eq_none hescape
    simp only [hescape] at hd
    split at hd
    · obtain rfl := Option.some.inj hd
      decide
    · obtain rfl := Option.some.inj hd
      rw [Char.ofNat_toNat]
      exact isGap_isBreak_eq_false hordinary hc hfeed

/-- An escape is written, and the line may end behind it. -/
theorem foldDouble_escape {e : List Char} (h : escape? c.toNat = some e)
    (first afterEscape : Bool) :
    foldDouble folds indent column first afterEscape ((c :: more).map Char.toNat) =
      if folds && !first && !more.isEmpty && decide (width + 1 < column + e.length) then
        e ++ (foldedBreak indent (more.head? == some ' ') ++
          foldDouble folds indent (foldedColumn indent (more.head? == some ' ')) false true
            (more.map Char.toNat))
      else e ++ foldDouble folds indent (column + e.length) false true (more.map Char.toNat) := by
  have hhead : ((more.map Char.toNat).head? == some 0x20) = (more.head? == some ' ') := by
    cases more with
    | nil => rfl
    | cons d more =>
      have hiff : d.toNat = 0x20 ↔ d = ' ' :=
        ⟨fun hd => Char.toNat_inj.mp hd, fun hd => hd ▸ rfl⟩
      simp [hiff, Bool.beq_eq_decide_eq]
  rw [List.map_cons, foldDouble]
  simp only [h, hhead, List.isEmpty_map, Bool.and_eq_true, decide_eq_true_eq, List.append_assoc]

/-- A character without an escape is written, and the line may end before it. -/
theorem foldDouble_char (h : escape? c.toNat = none) (first afterEscape : Bool) :
    foldDouble folds indent column first afterEscape ((c :: more).map Char.toNat) =
      if folds && !first && !more.isEmpty && (c == ' ' || afterEscape) &&
          decide (width < column) then
        foldedBreak indent (c == ' ') ++
          c :: foldDouble folds indent (foldedColumn indent (c == ' ') + 1) false false
            (more.map Char.toNat)
      else c :: foldDouble folds indent (column + 1) false false (more.map Char.toNat) := by
  have hspace : (c.toNat == 0x20) = (c == ' ') := by
    have hiff : c.toNat = 0x20 ↔ c = ' ' := ⟨fun hc => Char.toNat_inj.mp hc, fun hc => hc ▸ rfl⟩
    rw [Bool.eq_iff_iff, beq_iff_eq, beq_iff_eq, hiff]
  rw [List.map_cons, foldDouble]
  simp only [h, hspace, List.isEmpty_map, Bool.and_eq_true, decide_eq_true_eq, Char.ofNat_toNat]

/-- A blank that starts a folded line is read as itself, but at a narrow place it is folded once
more. -/
theorem readDouble_foldedBlank (hindent : 0 < indent)
    (hmore : IsReadFromFolds folds indent rest more) :
    readDouble (.breaks none [])
        ('\\' :: (foldDouble folds indent (indent + 1) false true ((' ' :: more).map Char.toNat) ++
          '"' :: rest)) =
      .ok (((if isNarrow folds indent && !more.isEmpty then ['\\', ' '] else []) ++
        ' ' :: overfold (isNarrow folds indent) false more).map Char.toNat, rest) := by
  have hcondition : (folds && !false && !more.isEmpty && (' ' == ' ' || true) &&
      decide (width < indent + 1)) = (isNarrow folds indent && !more.isEmpty) := by
    simp only [Nat.lt_succ_iff]
    simp [isNarrow, Bool.and_right_comm]
  rw [foldDouble_char rfl, hcondition]
  split_ifs with hfolds
  · -- the second fold
    have hcolumn : indent ≤ foldedColumn indent true + 1 := by
      rw [foldedColumn, if_pos rfl]
      omega
    have hread := hmore (foldedColumn indent true + 1) false false [] hcolumn
    have htext (written : List Char) :
        '\\' :: (foldedBreak indent (' ' == ' ') ++ ' ' :: written ++ '"' :: rest) =
          '\\' :: '\\' :: (newline indent ++ '\\' :: ' ' :: (written ++ '"' :: rest)) := by
      simp [foldedBreak_true]
    rw [htext, readDouble_backslash _ (by decide) (by decide) (by decide)]
    change prependPoints _ ('\\'.toNat) (readDouble .none _) = _
    rw [readDouble_break hindent, readDouble_protected]
    change prependPoints _ _ (prependPoints _ _ (readDouble (.blanks []) _)) = _
    rw [show (' ' == ' ') = true from rfl, hread]
    rfl
  · have hread := hmore (indent + 1 + 1) false false [] (by omega)
    rw [List.cons_append, readDouble_protected]
    change prependPoints _ _ (readDouble (.blanks []) _) = _
    rw [hread]
    rfl

/-- Behind an escape and the end of its line the rest of the text is read, with what strays in
between. -/
theorem readDouble_behindEscape (hescape : (escape? c.toNat).isSome = true) (hindent : 0 < indent)
    (hne : more ≠ []) (hrest : IsReadFromFolds folds indent rest more)
    (hblank : ∀ after, more = ' ' :: after → IsReadFromFolds folds indent rest after)
    (blanks : List Char) :
    prependPoints (.blanks blanks) c.toNat (readDouble .none
        (foldedBreak indent (more.head? == some ' ') ++
          (foldDouble folds indent (foldedColumn indent (more.head? == some ' ')) false true
            (more.map Char.toNat) ++ '"' :: rest))) =
      .ok ((blanks ++ overfold (isNarrow folds indent) false (c :: more)).map Char.toNat, rest) := by
  obtain ⟨d, after, rfl⟩ := List.exists_cons_of_ne_nil hne
  by_cases hd : d = ' '
  · subst hd
    have hread := readDouble_foldedBlank hindent (hblank after rfl)
    rw [show ((' ' :: after).head? == some ' ') = true from rfl, foldedBreak_true,
      List.cons_append, List.append_assoc, readDouble_hiddenBreak _ hindent,
      List.singleton_append, foldedColumn, if_pos rfl, hread, overfold_blank hescape]
    simp [prependPoints, Except.map, QuotedGap.text, QuotedGap.none]
  · have hspace : ((d :: after).head? == some ' ') = false := by simpa using hd
    have hread := hrest indent false true [] (Nat.le_refl _)
    rw [hspace, foldedBreak_false, List.cons_append, readDouble_hiddenBreak _ hindent,
      foldedColumn, if_neg Bool.false_ne_true,
      readDouble_behindHiddenBreak (head_foldDouble hd false true _)]
    change prependPoints _ _ (prependPoints _ _ (readDouble (.blanks []) _)) = _
    rw [hread, overfold_of_ne hd]
    simp [prependPoints, Except.map, QuotedGap.text, QuotedGap.none]

/-- Where the line does not end behind an escape nothing strays in. -/
theorem strayGap_eq_nil {first : Bool} {length : Nat} (hlength : 2 ≤ length)
    (hcolumn : indent ≤ column)
    (h : ¬ (folds && !first && !more.isEmpty && decide (width + 1 < column + length)) = true) :
    strayGap (isNarrow folds indent) first c more = [] := by
  rw [strayGap, if_neg]
  simp only [isNarrow, Bool.and_eq_true, Bool.not_eq_true', decide_eq_true_eq] at h ⊢
  rintro ⟨⟨⟨⟨⟨hfolds, hnarrow⟩, hinner⟩, -⟩, -⟩, hmore⟩
  have hnonempty : more.isEmpty = false := by
    cases more with
    | nil => contradiction
    | cons d after => rfl
  have hwide : width + 1 < column + length := by omega
  exact h ⟨⟨⟨hfolds, hinner⟩, hnonempty⟩, hwide⟩

/-- An escaped character is read from its escape, behind which the line may have ended. -/
theorem IsReadFromFolds.cons_escaped {e : List Char} (hescape : escape? c.toNat = some e)
    (hindent : 0 < indent) (hrest : IsReadFromFolds folds indent rest more)
    (hblank : ∀ after, more = ' ' :: after → IsReadFromFolds folds indent rest after) :
    IsReadFromFolds folds indent rest (c :: more) := by
  intro column first afterEscape blanks hcolumn
  have hpoint : c.toNat < 0x110000 := by
    have hvalid := CodeString.toNat_isValid c
    omega
  rw [foldDouble_escape hescape]
  split_ifs with hfolds
  · -- the line ends behind the escape, so the character is an inner one
    have hfirst : first = false ∧ more ≠ [] := by
      simp only [Bool.and_eq_true, Bool.not_eq_true', List.isEmpty_eq_false_iff] at hfolds
      exact ⟨hfolds.1.1.2, hfolds.1.2⟩
    obtain ⟨rfl, hne⟩ := hfirst
    have hsome : (escape? c.toNat).isSome = true := by
      rw [hescape]
      rfl
    rw [List.append_assoc, List.append_assoc, readDouble_escape _ hpoint hescape]
    exact readDouble_behindEscape hsome hindent hne hrest hblank blanks
  · -- an escape has two characters, so at a narrow place the line would have ended
    obtain ⟨letter, digits, he⟩ := escape?_eq_cons hescape
    have hlength : 2 ≤ e.length := by simp [he]
    have hread := hrest (column + e.length) false true [] (by omega)
    rw [List.append_assoc, readDouble_escape _ hpoint hescape]
    change prependPoints _ _ (readDouble (.blanks []) _) = _
    rw [hread, overfold, strayGap_eq_nil hlength hcolumn hfolds]
    simp [prependPoints, Except.map, QuotedGap.text]

/-- A character without an escape is read from itself, before which the line may have ended. -/
theorem IsReadFromFolds.cons_plain (hescape : escape? c.toNat = none) (hindent : 0 < indent)
    (hrest : IsReadFromFolds folds indent rest more) :
    IsReadFromFolds folds indent rest (c :: more) := by
  intro column first afterEscape blanks hcolumn
  have hstray : overfold (isNarrow folds indent) first (c :: more) =
      c :: overfold (isNarrow folds indent) false more := by
    simp [overfold, strayGap, hescape]
  rw [foldDouble_char hescape, hstray]
  split_ifs with hfolds
  · have hread := hrest (foldedColumn indent (c == ' ') + 1) false false []
      (by unfold foldedColumn; split_ifs <;> omega)
    by_cases hc : c = ' '
    · subst hc
      rw [show (' ' == ' ') = true from rfl] at hread ⊢
      simp only [foldedBreak_true, List.cons_append, List.append_assoc, List.nil_append]
      rw [readDouble_hiddenBreak _ hindent, readDouble_protected]
      change prependPoints _ _ (prependPoints _ _ (readDouble (.blanks []) _)) = _
      rw [hread]
      simp [prependPoints, Except.map, QuotedGap.text]
    · rw [beq_eq_false_iff_ne.mpr hc] at hread ⊢
      simp only [foldedBreak_false, List.cons_append, List.append_assoc]
      rw [readDouble_hiddenBreak _ hindent, readDouble_char _ hescape hc]
      change prependPoints _ _ (prependPoints _ _ (readDouble (.blanks []) _)) = _
      rw [hread]
      simp [prependPoints, Except.map, QuotedGap.text]
  · by_cases hc : c = ' '
    · subst hc
      have hread := hrest (column + 1) false false (blanks ++ [' ']) (by omega)
      rw [List.cons_append, readDouble_blank, hread, List.append_assoc]
      rfl
    · have hread := hrest (column + 1) false false [] (by omega)
      rw [List.cons_append, readDouble_char _ hescape hc]
      change prependPoints _ _ (readDouble (.blanks []) _) = _
      rw [hread]
      simp [prependPoints, Except.map, QuotedGap.text]

/-- Every text is read from its folds, the text behind its first character as well as the one
behind a blank after that. -/
theorem isReadFromFolds (hindent : 0 < indent) (text : List Char) :
    IsReadFromFolds folds indent rest text ∧
      ∀ after, text = ' ' :: after → IsReadFromFolds folds indent rest after := by
  induction text with
  | nil =>
    refine ⟨fun column first afterEscape blanks _ => ?_, by simp⟩
    rw [List.map_nil, foldDouble, overfold, List.nil_append, readDouble.eq_def, List.append_nil]
    rfl
  | cons c more ih =>
    obtain ⟨hmore, hblank⟩ := ih
    refine ⟨?_, ?_⟩
    · cases hescape : escape? c.toNat with
      | some e => exact hmore.cons_escaped hescape hindent hblank
      | none => exact hmore.cons_plain hescape hindent
    · rintro after ⟨rfl, rfl⟩
      exact hmore

end Folds

/-- Escapes are ordinary. -/
theorem all_isOrdinary_of_escape? {n : Nat} {e : List Char} (h : escape? n = some e) :
    e.all isOrdinary = true := by
  have hshort : ∀ p ∈ shortEscapes, isOrdinary p.2 = true := by decide
  unfold escape? at h
  split at h
  · next p hfound =>
    obtain rfl := Option.some.inj h
    rw [List.all_cons, List.all_cons, hshort p (List.mem_of_find?_eq_some hfound)]
    rfl
  · split_ifs at h <;> obtain rfl := Option.some.inj h <;>
      simp [all_isOrdinary_hexDigits, isOrdinary]

/-- A folded line end is ordinary. -/
theorem all_isOrdinary_foldedBreak (indent : Nat) (nextIsSpace : Bool) :
    (foldedBreak indent nextIsSpace).all isOrdinary = true := by
  rw [foldedBreak, List.all_append, List.all_cons, all_isOrdinary_newline]
  cases nextIsSpace <;> rfl

/-- Text is written between double quotes with ordinary characters. -/
theorem all_isOrdinary_foldDouble (folds : Bool) (indent : Nat) (text : List Char) (column : Nat)
    (first afterEscape : Bool) :
    (foldDouble folds indent column first afterEscape (text.map Char.toNat)).all isOrdinary =
      true := by
  induction text generalizing column first afterEscape with
  | nil => rfl
  | cons c more ih =>
    cases hescape : escape? c.toNat with
    | some e =>
      rw [foldDouble_escape hescape]
      split_ifs
      · simp only [List.all_append, all_isOrdinary_of_escape? hescape, all_isOrdinary_foldedBreak,
          ih, Bool.and_self]
      · simp only [List.all_append, all_isOrdinary_of_escape? hescape, ih, Bool.and_self]
    | none =>
      rw [foldDouble_char hescape]
      split_ifs
      · simp only [List.all_append, List.all_cons, (of_escape?_eq_none hescape).1,
          all_isOrdinary_foldedBreak, ih, Bool.and_self]
      · simp only [List.all_cons, (of_escape?_eq_none hescape).1, ih, Bool.and_self]

/-- Text between double quotes is read back, with what strays in at a narrow place. -/
theorem readDouble_written {indent : Nat} (hindent : 0 < indent) (folds : Bool) {column : Nat}
    (hcolumn : indent ≤ column + 1) (text rest : List Char) :
    readDouble .none
        (foldDouble folds indent (column + 1) true false (text.map Char.toNat) ++ ['"'] ++ rest) =
      .ok ((overfold (isNarrow folds indent) true text).map Char.toNat, rest) := by
  rw [List.append_assoc, List.singleton_append]
  exact (isReadFromFolds hindent text).1 (column + 1) true false [] hcolumn

end EnumLabels.Yaml
