import EnumLabels.Proofs.Decimal.Whole
import EnumLabels.Proofs.Yaml.SafePlain

/-!
# Data that is written plain

Null, truth values and whole numbers are written as words that are safe and denote them. A whole
number is not taken for a float, since it has no point, nor for a number in another base, since
only zero starts with the digit zero.
-/

namespace EnumLabels.Yaml

/-- A text that is written plain and denotes data when it is read. -/
structure IsPlainData (text : List Char) (d : Data) : Prop where
  nonempty : text ≠ []
  safe : isSafePlain text = true
  denotes : Plain.of text = .data d

/-- Null is a word. -/
theorem isPlainData_null : IsPlainData "null".toList .null := ⟨by simp, rfl, rfl⟩

/-- Truth values are words. -/
theorem isPlainData_bool (b : Bool) :
    IsPlainData (if b then "true".toList else "false".toList) (.bool b) := by
  cases b
  · exact ⟨by simp, rfl, rfl⟩
  · exact ⟨by simp, rfl, rfl⟩

section Digits

variable {c : Char} {digits : List Char}

/-- A digit is no other character. -/
theorem beq_eq_false_of_isDigit {d : Char} (hc : c.isDigit = true) (hd : d.isDigit = false) :
    (c == d) = false := by
  rw [beq_eq_false_iff_ne]
  rintro rfl
  rw [hc] at hd
  contradiction

/-- A digit is printable ASCII. -/
theorem isOrdinary_of_isDigit (h : c.isDigit = true) : isOrdinary c = true := by
  simp only [Char.isDigit, Bool.and_eq_true, decide_eq_true_eq] at h
  refine isOrdinary_iff.mpr (Or.inr ⟨Nat.le_trans (by decide) h.1, Nat.le_trans h.2 (by decide)⟩)

/-- A digit is neither a blank nor a line end. -/
theorem isSpaceOrBreak_of_isDigit (h : c.isDigit = true) : isSpaceOrBreak c = false := by
  have hordinary := isOrdinary_of_isDigit h
  rw [isSpaceOrBreak, isBreak_of_isOrdinary hordinary]
  simp only [beq_eq_false_of_isDigit h (d := ' ') rfl, beq_eq_false_of_isDigit h (d := '\t') rfl,
    beq_eq_false_of_isDigit h (d := '\r') rfl, beq_eq_false_of_isDigit h (d := '\n') rfl,
    Bool.or_self]

/-- Neither a digit nor a minus sign is an indicator. -/
theorem notMem_indicators (h : c = '-' ∨ c.isDigit = true) : c ∉ indicators := by
  intro hmem
  obtain ⟨hminus, -, -, hdigit⟩ := of_mem_indicators hmem
  rcases h with heq | heq
  · exact hminus heq
  · rw [hdigit] at heq
    exact Bool.false_ne_true heq

end Digits

/-- The characters of a whole number are a sign and digits. -/
theorem eq_minus_or_isDigit_of_mem_intText {n : Int} {c : Char} (h : c ∈ Decimal.intText n) :
    c = '-' ∨ c.isDigit = true := by
  unfold Decimal.intText at h
  split at h
  · rcases List.mem_cons.mp h with rfl | hdigit
    · exact Or.inl rfl
    · exact Or.inr (Decimal.isDigit_of_mem_toDigits hdigit)
  · exact Or.inr (Decimal.isDigit_of_mem_toDigits h)

/-- Only a minus sign and digits stand in a whole number. -/
theorem notMem_intText {d : Char} (hminus : d ≠ '-') (hdigit : d.isDigit = false) (n : Int) :
    d ∉ Decimal.intText n := by
  intro hmem
  rcases eq_minus_or_isDigit_of_mem_intText hmem with heq | heq
  · exact hminus heq
  · rw [hdigit] at heq
    contradiction

/-- A whole number does not look like punctuation. -/
theorem looksLikePunctuation_intText (n : Int) :
    looksLikePunctuation (Decimal.intText n) = false := by
  have hcolon := notMem_intText (d := ':') (by decide) rfl n
  have hhash := notMem_intText (d := '#') (by decide) rfl n
  obtain ⟨sign, d, ds, htext, hsign, hdigit⟩ := Decimal.exists_intText_eq n
  have hne (c : Char) (hc : c.isDigit = false) : (c == d) = false := by
    rw [Bool.beq_comm]
    exact beq_eq_false_of_isDigit hdigit hc
  have hstart : startsBlank (d :: ds) = false := by
    rw [startsBlank, isSpaceOrBreak_of_isDigit hdigit, beq_eq_false_of_isDigit hdigit rfl]
    rfl
  rw [htext] at hcolon hhash ⊢
  rcases hsign with rfl | rfl
  · rw [List.nil_append, List.mem_cons, not_or] at hcolon hhash
    simp [looksLikePunctuation, List.isPrefixOf, hne '-' rfl, hne '.' rfl,
      notMem_indicators (Or.inr hdigit), hasPunctuation_eq_false hcolon.2 hhash.2,
      beq_eq_false_of_isDigit hdigit (d := '?') rfl, beq_eq_false_of_isDigit hdigit (d := ':') rfl,
      beq_eq_false_of_isDigit hdigit (d := '-') rfl]
  · rw [List.singleton_append, List.mem_cons, not_or] at hcolon hhash
    simp [looksLikePunctuation, List.isPrefixOf, hne '-' rfl, hstart,
      notMem_indicators (Or.inl rfl), hasPunctuation_eq_false hcolon.2 hhash.2]

/-- A whole number can be written plain. -/
theorem isSafePlain_intText (n : Int) : isSafePlain (Decimal.intText n) = true := by
  have hordinary : ∀ c ∈ Decimal.intText n, isOrdinary c = true := by
    intro c hc
    rcases eq_minus_or_isDigit_of_mem_intText hc with rfl | hdigit
    · rfl
    · exact isOrdinary_of_isDigit hdigit
  have hfeed := notMem_intText (d := '\n') (by decide) rfl n
  have hblank := notMem_intText (d := ' ') (by decide) rfl n
  have hbreak : ∀ c ∈ Decimal.intText n, (c == ' ') = false ∧ isBreak c = false := by
    intro c hc
    rw [isBreak_of_isOrdinary (hordinary c hc), beq_eq_false_iff_ne, beq_eq_false_iff_ne]
    exact ⟨fun heq => hblank (heq ▸ hc), fun heq => hfeed (heq ▸ hc)⟩
  have hloose : hasLooseEnds (Decimal.intText n) = false := by
    have hend {c : Char} (h : c ∈ Decimal.intText n) : (c == ' ' || isBreak c) = false := by
      rw [(hbreak c h).1, (hbreak c h).2, Bool.or_self]
    rw [hasLooseEnds, Bool.or_eq_false_iff]
    constructor
    · cases hfirst : (Decimal.intText n).head? with
      | none => rfl
      | some c => exact hend (List.mem_of_head? hfirst)
    · cases hlast : (Decimal.intText n).getLast? with
      | none => rfl
      | some c => exact hend (List.mem_of_getLast? hlast)
  have hany : (Decimal.intText n).any isBreak = false := by
    rw [List.any_eq_false]
    intro c hc
    simp [(hbreak c hc).2]
  rw [isSafePlain, hloose, looksLikePunctuation_intText, hany, List.all_eq_true.mpr hordinary]
  rfl

section Reading

variable {d : Char} {ds : List Char}

/-- Digits are read up to their end. -/
theorem leadingDigits?_of_all_isDigit (h : ∀ c ∈ d :: ds, c.isDigit = true) :
    Plain.leadingDigits? (d :: ds) = some (d :: ds, []) := by
  have hall : ∀ c ∈ d :: ds, Plain.isDigitOrGap c = true := by
    intro c hc
    rw [Plain.isDigitOrGap, h c hc, Bool.true_or]
  rw [Plain.leadingDigits?, h d List.mem_cons_self, if_pos rfl, List.takeWhile_eq_self_iff.mpr hall,
    List.dropWhile_eq_nil_iff.mpr hall]

/-- A text of a sign and digits is none of some words that start with other characters. -/
theorem isOneOf_eq_false (words : List String) {c : Char} (hc : c = '-' ∨ c.isDigit = true)
    (hwords : ∀ w ∈ words, w.toList.head? ≠ some '-' ∧ w.toList.head?.any Char.isDigit = false)
    (rest : List Char) : Plain.isOneOf words (c :: rest) = false := by
  rw [Plain.isOneOf, List.any_eq_false]
  intro w hw heq
  rw [beq_iff_eq] at heq
  obtain ⟨hminus, hdigit⟩ := hwords w hw
  rw [heq] at hminus hdigit
  rcases hc with hc | hc
  · exact hminus (congrArg some hc)
  · exact Bool.false_ne_true (hdigit.symm.trans hc)

/-- The sign is split off the digits. -/
theorem splitSign_append (ds : List Char) {sign : List Char} (hsign : sign = [] ∨ sign = ['-'])
    (h : d.isDigit = true) : Plain.splitSign (sign ++ d :: ds) = (!sign.isEmpty, d :: ds) := by
  rcases hsign with rfl | rfl
  · rw [List.nil_append, Plain.splitSign]
    · rfl
    · rintro rest heq
      obtain ⟨rfl, rfl⟩ := List.cons.inj heq
      contradiction
    · rintro rest heq
      obtain ⟨rfl, rfl⟩ := List.cons.inj heq
      contradiction
  · rfl

/-- Digits without a point are no float. -/
theorem float?_eq_none {sign : List Char} (hsign : sign = [] ∨ sign = ['-'])
    (h : ∀ c ∈ d :: ds, c.isDigit = true) : Plain.float? (sign ++ d :: ds) = none := by
  have hd := h d List.mem_cons_self
  obtain ⟨c, rest, htext, hc⟩ : ∃ c rest, sign ++ d :: ds = c :: rest ∧
      (c = '-' ∨ c.isDigit = true) := by
    rcases hsign with rfl | rfl
    · exact ⟨d, ds, rfl, Or.inr hd⟩
    · exact ⟨'-', d :: ds, rfl, Or.inl rfl⟩
  have hpoint : c ≠ '.' := by
    rintro rfl
    rcases hc with hc | hc <;> contradiction
  have hsplit := splitSign_append ds hsign hd
  rw [htext] at hsplit ⊢
  have hdecimal : Plain.decimalFloat? (c :: rest) = none := by
    rw [Plain.decimalFloat?, hsplit]
    · change (Plain.leadingDigits? (d :: ds) >>= _) = _
      rw [leadingDigits?_of_all_isDigit h]
      rfl
    · rintro after heq
      exact hpoint (List.cons.inj heq).1
  have hinfinity : Plain.infinity? (c :: rest) = none := by
    simp only [Plain.infinity?, hsplit,
      isOneOf_eq_false [".inf", ".Inf", ".INF"] (Or.inr hd) (by decide) ds,
      if_neg Bool.false_ne_true]
  have hnan := isOneOf_eq_false [".nan", ".NaN", ".NAN"] hc (by decide) rest
  have hsexagesimal : Plain.sexagesimalFloat? (c :: rest) = none := by
    have hwhole : (d :: ds).takeWhile (· != '.') = d :: ds := by
      rw [List.takeWhile_eq_self_iff]
      intro e he
      rw [bne, beq_eq_false_of_isDigit (h e he) rfl]
      rfl
    rw [Plain.sexagesimalFloat?, hsplit]
    simp only [hwhole, List.drop_length]
  rw [Plain.float?, hdecimal, hinfinity]
  simp only [hnan, if_neg Bool.false_ne_true, hsexagesimal, Option.map_none]
  rfl

end Reading

/-- A natural number is read from its digits. -/
theorem nat?_toDigits (n : Nat) : Plain.nat? (Nat.toDigits 10 n) = some (.ok n) := by
  obtain ⟨d, ds, hdigits, -⟩ := Decimal.exists_toDigits_eq_cons n
  by_cases hzero : d = '0'
  · subst hzero
    obtain rfl := Decimal.eq_zero_of_toDigits_eq_cons hdigits
    rfl
  · have hall : ∀ c ∈ d :: ds, c.isDigit = true := by
      rw [← hdigits]
      exact fun c hc => Decimal.isDigit_of_mem_toDigits hc
    have hgaps : Plain.withoutGaps (d :: ds) = d :: ds := by
      rw [Plain.withoutGaps, List.filter_eq_self]
      intro e he
      rw [bne, beq_eq_false_of_isDigit (hall e he) rfl]
      rfl
    have hvalue := Decimal.natOfDigits_toDigits n
    rw [hdigits] at hvalue ⊢
    unfold Plain.nat?
    split
    · next heq => exact absurd (List.cons.inj heq).1 hzero
    · next heq => exact absurd (List.cons.inj heq).1 hzero
    · next heq => exact absurd (List.cons.inj heq).1 hzero
    · next heq => exact absurd (List.cons.inj heq).1 hzero
    · rw [leadingDigits?_of_all_isDigit hall]
      simp only [hgaps, hvalue]

/-- A whole number is read from its digits. -/
theorem plainOf_intText (n : Int) : Plain.of (Decimal.intText n) = .data (.int n) := by
  obtain ⟨d, ds, hdigits, hdigit⟩ := Decimal.exists_toDigits_eq_cons n.natAbs
  have hall : ∀ c ∈ d :: ds, c.isDigit = true := by
    rw [← hdigits]
    exact fun c hc => Decimal.isDigit_of_mem_toDigits hc
  have hsigned (sign : List Char) (hsign : sign = [] ∨ sign = ['-']) :
      Plain.of (sign ++ d :: ds) =
        .data (.int (if !sign.isEmpty then -(n.natAbs : Int) else n.natAbs)) := by
    have hwords (words : List String)
        (h : ∀ w ∈ words, w.toList.head? ≠ some '-' ∧ w.toList.head?.any Char.isDigit = false) :
        Plain.isOneOf words (sign ++ d :: ds) = false := by
      rcases hsign with rfl | rfl
      · exact isOneOf_eq_false words (Or.inr hdigit) h ds
      · exact isOneOf_eq_false words (Or.inl rfl) h (d :: ds)
    have hnat := nat?_toDigits n.natAbs
    rw [hdigits] at hnat
    rw [Plain.of, hwords _ (by decide), hwords _ (by decide), float?_eq_none hsign hall,
      splitSign_append ds hsign hdigit]
    simp only [if_neg Bool.false_ne_true, hnat]
  unfold Decimal.intText
  rw [hdigits]
  split_ifs with hn
  · have hvalue := hsigned ['-'] (Or.inr rfl)
    rw [List.singleton_append] at hvalue
    rw [hvalue]
    simp only [List.isEmpty_cons, Bool.not_false, if_true]
    congr 2
    omega
  · have hvalue := hsigned [] (Or.inl rfl)
    rw [List.nil_append] at hvalue
    rw [hvalue]
    simp only [List.isEmpty_nil, Bool.not_true, if_neg Bool.false_ne_true]
    congr 2
    omega

/-- Whole numbers are words. -/
theorem isPlainData_int (n : Int) : IsPlainData (Decimal.intText n) (.int n) where
  nonempty := by
    obtain ⟨sign, d, ds, htext, -⟩ := Decimal.exists_intText_eq n
    rw [htext]
    simp
  safe := isSafePlain_intText n
  denotes := plainOf_intText n

end EnumLabels.Yaml
