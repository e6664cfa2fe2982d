import EnumLabels.Proofs.Text.Words

/-!
# A text divided into its words

A text is cut in exactly one way into runs of letters and digits and the separators before, between
and behind them, if two runs are never neighbours. The runs are the words of the text. Words that
are joined by blanks, or by other separators, are therefore read back.

Two cuts of a text agree from the left: as far as separators reach both have the same separators,
and as far as letters and digits then reach both have the same run.
-/

namespace EnumLabels.Text

/-- Separators only. -/
def IsGap (text : List Char) : Prop := ∀ c ∈ text, isWordChar c = false

/-- Letters and digits only, and at least one of them. -/
structure IsRun (text : List Char) : Prop where
  ne_nil : text ≠ []
  isWordChar : ∀ c ∈ text, isWordChar c = true

/-- Runs, each with the separators behind it. Only behind the last run they may be missing. -/
structure AreParts (parts : List (List Char × List Char)) : Prop where
  isRun : ∀ p ∈ parts, IsRun p.1
  isGap : ∀ p ∈ parts, IsGap p.2
  ne_nil : ∀ p ∈ parts.dropLast, p.2 ≠ []

instance (text : List Char) : Decidable (IsGap text) :=
  decidable_of_iff (text.all (!isWordChar ·) = true) (by simp [IsGap])

instance (text : List Char) : Decidable (IsRun text) :=
  decidable_of_iff (text ≠ [] ∧ text.all isWordChar = true)
    ⟨fun h => ⟨h.1, List.all_eq_true.mp h.2⟩, fun h => ⟨h.ne_nil, List.all_eq_true.mpr h.isWordChar⟩⟩

instance (parts : List (List Char × List Char)) : Decidable (AreParts parts) :=
  decidable_of_iff ((∀ p ∈ parts, IsRun p.1) ∧ (∀ p ∈ parts, IsGap p.2) ∧
    ∀ p ∈ parts.dropLast, p.2 ≠ [])
    ⟨fun h => ⟨h.1, h.2.1, h.2.2⟩, fun h => ⟨h.isRun, h.isGap, h.ne_nil⟩⟩

/-- A text cut into separators and, behind them, runs with the separators that follow. -/
structure Division where
  start : List Char
  parts : List (List Char × List Char)
  isGap_start : IsGap start
  areParts : AreParts parts

/-- The text of runs with the separators behind them. -/
def textOfParts (parts : List (List Char × List Char)) : List Char :=
  parts.flatMap fun p => p.1 ++ p.2

namespace Division

/-- The text that is cut. -/
def text (d : Division) : List Char := d.start ++ textOfParts d.parts

/-- The runs of a cut. -/
def runs (d : Division) : List (List Char) := d.parts.map (·.1)

end Division

/-- The letters and digits are those of ASCII. -/
theorem isWordChar_iff (c : Char) : isWordChar c = true ↔
    ('A' ≤ c ∧ c ≤ 'Z') ∨ ('a' ≤ c ∧ c ≤ 'z') ∨ ('0' ≤ c ∧ c ≤ '9') := by
  have hupper : c.isUpper = true ↔ 'A' ≤ c ∧ c ≤ 'Z' := decide_eq_true_iff
  have hlower : c.isLower = true ↔ 'a' ≤ c ∧ c ≤ 'z' :=
    Bool.and_eq_true_iff.trans (and_congr decide_eq_true_iff decide_eq_true_iff)
  have hdigit : c.isDigit = true ↔ '0' ≤ c ∧ c ≤ '9' :=
    Bool.and_eq_true_iff.trans (and_congr decide_eq_true_iff decide_eq_true_iff)
  rw [isWordChar, ← hupper, ← hlower, ← hdigit, ← or_assoc, ← Bool.or_eq_true_iff,
    ← Bool.or_eq_true_iff]
  rfl

/-- Parts consist of a first one, behind which separators follow if more parts do, and of parts. -/
theorem areParts_cons_iff {p : List Char × List Char} {parts : List (List Char × List Char)} :
    AreParts (p :: parts) ↔
      IsRun p.1 ∧ IsGap p.2 ∧ (parts ≠ [] → p.2 ≠ []) ∧ AreParts parts := by
  have hparted : (∀ q ∈ (p :: parts).dropLast, q.2 ≠ []) ↔
      (parts ≠ [] → p.2 ≠ []) ∧ ∀ q ∈ parts.dropLast, q.2 ≠ [] := by
    cases parts <;> simp
  constructor
  · rintro ⟨hrun, hgap, hne⟩
    obtain ⟨hfirst, hruns⟩ := List.forall_mem_cons.mp hrun
    obtain ⟨hbehind, hgaps⟩ := List.forall_mem_cons.mp hgap
    obtain ⟨hnext, hothers⟩ := hparted.mp hne
    exact ⟨hfirst, hbehind, hnext, hruns, hgaps, hothers⟩
  · rintro ⟨hfirst, hbehind, hnext, hruns, hgaps, hothers⟩
    exact ⟨List.forall_mem_cons.mpr ⟨hfirst, hruns⟩, List.forall_mem_cons.mpr ⟨hbehind, hgaps⟩,
      hparted.mpr ⟨hnext, hothers⟩⟩

/-- The text of parts begins with a letter or digit. -/
theorem isWordChar_head_textOfParts {parts : List (List Char × List Char)} (h : AreParts parts) :
    ∀ c ∈ (textOfParts parts).head?, isWordChar c = true := by
  cases parts with
  | nil => simp [textOfParts]
  | cons p parts =>
    obtain ⟨hrun, -⟩ := areParts_cons_iff.mp h
    obtain ⟨c, run, hp⟩ := List.exists_cons_of_ne_nil hrun.ne_nil
    have hc : isWordChar c = true := hrun.isWordChar c (hp ▸ List.mem_cons_self)
    simpa [textOfParts, hp] using hc

/-- The text of parts is empty only if there are none. -/
theorem textOfParts_eq_nil {parts : List (List Char × List Char)} (h : AreParts parts)
    (hnil : textOfParts parts = []) : parts = [] := by
  cases parts with
  | nil => rfl
  | cons p parts =>
    obtain ⟨hrun, -⟩ := areParts_cons_iff.mp h
    rw [textOfParts, List.flatMap_cons, List.append_assoc, List.append_eq_nil_iff] at hnil
    exact absurd hnil.1 hrun.ne_nil

/-- Behind the run of a part the text does not go on with a letter or digit. -/
theorem isWordChar_head_behindRun {p : List Char × List Char}
    {parts : List (List Char × List Char)} (h : AreParts (p :: parts)) :
    ∀ c ∈ (p.2 ++ textOfParts parts).head?, isWordChar c = false := by
  obtain ⟨-, hgap, hnext, -⟩ := areParts_cons_iff.mp h
  cases hp : p.2 with
  | nil =>
    have hnone : parts = [] := by
      by_contra hne
      exact hnext hne hp
    simp [hnone, textOfParts]
  | cons c gap =>
    have hc : isWordChar c = false := hgap c (hp ▸ List.mem_cons_self)
    simpa using hc

/-- Two cuts of a text behind characters of one kind, where the other kind or nothing follows, are
the same. -/
theorem append_inj_of_kind {b : Bool} {front front' back back' : List Char}
    (hfront : ∀ c ∈ front, isWordChar c = b) (hfront' : ∀ c ∈ front', isWordChar c = b)
    (hback : ∀ c ∈ back.head?, isWordChar c = !b) (hback' : ∀ c ∈ back'.head?, isWordChar c = !b)
    (h : front ++ back = front' ++ back') : front = front' ∧ back = back' := by
  have htake {text more : List Char} (htext : ∀ c ∈ text, isWordChar c = b)
      (hmore : ∀ c ∈ more.head?, isWordChar c = !b) :
      (text ++ more).takeWhile (isWordChar · == b) = text := by
    rw [List.takeWhile_append_of_pos (by simpa using htext)]
    cases more with
    | nil => exact List.append_nil text
    | cons c more => simp [hmore c rfl]
  have hsame : front = front' := by
    rw [← htake hfront hback, h, htake hfront' hback']
  subst hsame
  exact ⟨rfl, List.append_cancel_left h⟩

/-- The separators before parts and the parts are determined by their text. -/
theorem parts_inj {start start' : List Char} {parts parts' : List (List Char × List Char)}
    (hstart : IsGap start) (hstart' : IsGap start') (hparts : AreParts parts)
    (hparts' : AreParts parts') (h : start ++ textOfParts parts = start' ++ textOfParts parts') :
    start = start' ∧ parts = parts' := by
  induction parts generalizing start start' parts' with
  | nil =>
    obtain ⟨hsame, htext⟩ := append_inj_of_kind hstart hstart'
      (isWordChar_head_textOfParts hparts) (isWordChar_head_textOfParts hparts') h
    exact ⟨hsame, (textOfParts_eq_nil hparts' htext.symm).symm⟩
  | cons p parts ih =>
    obtain ⟨hsame, htext⟩ := append_inj_of_kind hstart hstart'
      (isWordChar_head_textOfParts hparts) (isWordChar_head_textOfParts hparts') h
    cases parts' with
    | nil => exact absurd (textOfParts_eq_nil hparts htext) (List.cons_ne_nil p parts)
    | cons p' parts' =>
      obtain ⟨hrun, hgap, -, hrest⟩ := areParts_cons_iff.mp hparts
      obtain ⟨hrun', hgap', -, hrest'⟩ := areParts_cons_iff.mp hparts'
      simp only [textOfParts, List.flatMap_cons, List.append_assoc] at htext
      obtain ⟨hword, hbehind⟩ := append_inj_of_kind hrun.isWordChar hrun'.isWordChar
        (isWordChar_head_behindRun hparts) (isWordChar_head_behindRun hparts') htext
      obtain ⟨hseparators, rfl⟩ := ih hgap hgap' hrest hrest' hbehind
      exact ⟨hsame, congrArg (· :: parts) (Prod.ext hword hseparators)⟩

/-- A text has only one cut. -/
theorem Division.text_injective : Function.Injective Division.text := by
  rintro ⟨start, parts, hstart, hparts⟩ ⟨start', parts', hstart', hparts'⟩ h
  obtain ⟨rfl, rfl⟩ := parts_inj hstart hstart' hparts hparts' h
  rfl

/-- A text has a cut, whose runs are its words. -/
theorem exists_division (text : List Char) :
    ∃ d : Division, d.text = text ∧ d.runs = words text := by
  induction hn : text.length using Nat.strong_induction_on generalizing text with
  | _ n ih =>
    subst hn
    rcases exists_isFirstWord text with
      hnone | ⟨word, separators, tail, rfl, hgap, hne, hword, htail⟩
    · exact ⟨⟨text, [], hnone, by simp, by simp, by simp⟩, List.append_nil text,
        (words_eq_nil hnone).symm⟩
    · have hshorter : tail.length < (separators ++ word ++ tail).length := by
        have hpos := List.length_pos_iff.mpr hne
        simp only [List.length_append]
        omega
      obtain ⟨d, rfl, hruns⟩ := ih _ hshorter tail rfl
      -- What follows the word begins with a separator, so the cut of it does if it has a run.
      have hnext : d.parts ≠ [] → d.start ≠ [] := by
        intro hparts hstart
        apply hparts
        apply textOfParts_eq_nil d.areParts
        rw [← List.head?_eq_none_iff, Option.eq_none_iff_forall_not_mem]
        intro c hc
        have hsolid := isWordChar_head_textOfParts d.areParts c hc
        rw [htail c (by rwa [Division.text, hstart])] at hsolid
        contradiction
      refine ⟨⟨separators, (word, d.start) :: d.parts, hgap,
        areParts_cons_iff.mpr ⟨⟨hne, hword⟩, d.isGap_start, hnext, d.areParts⟩⟩, ?_, ?_⟩
      · simp [Division.text, textOfParts]
      · rw [words_separated hgap hne hword htail, ← hruns]
        rfl

/-- The words of a text are runs of letters and digits. -/
theorem isRun_of_mem_words {text word : List Char} (h : word ∈ words text) : IsRun word := by
  obtain ⟨d, -, hruns⟩ := exists_division text
  rw [← hruns] at h
  obtain ⟨p, hp, rfl⟩ := List.mem_map.mp h
  exact d.areParts.isRun p hp

/-- Runs of letters and digits that are joined by a separator are the words of the text. -/
theorem words_intercalate {c : Char} (hc : isWordChar c = false) {runs : List (List Char)}
    (h : ∀ run ∈ runs, IsRun run) : words ([c].intercalate runs) = runs := by
  induction runs with
  | nil => rfl
  | cons run runs ih =>
    obtain ⟨hrun, hruns⟩ := List.forall_mem_cons.mp h
    have hword : words run = [run] := words_eq_singleton hrun.ne_nil hrun.isWordChar
    cases runs with
    | nil => rw [List.intercalate_singleton, hword]
    | cons next runs =>
      rw [List.intercalate_cons_cons, List.append_assoc, List.singleton_append,
        words_append_cons hc, hword, ih hruns, List.singleton_append]

/-- The words of a text are the runs of its only cut into runs of ASCII letters and digits and the
separators around them.

So a separator divides the words of a text, and words that are joined by blanks are read back. -/
theorem words_are_maximal_runs :
    (∀ c, isWordChar c = true ↔
      ('A' ≤ c ∧ c ≤ 'Z') ∨ ('a' ≤ c ∧ c ≤ 'z') ∨ ('0' ≤ c ∧ c ≤ '9')) ∧
    (∀ text, ∃ d : Division, d.text = text ∧ d.runs = words text ∧
      ∀ e : Division, e.text = text → e = d) ∧
    (∀ c, isWordChar c = false → ∀ text more,
      words (text ++ c :: more) = words text ++ words more) ∧
    ∀ text, words ([' '].intercalate (words text)) = words text := by
  refine ⟨isWordChar_iff, ?_, ?_, ?_⟩
  · intro text
    obtain ⟨d, htext, hruns⟩ := exists_division text
    exact ⟨d, htext, hruns, fun e he => Division.text_injective (he.trans htext.symm)⟩
  · intro c hc text more
    exact words_append_cons hc text more
  · intro text
    exact words_intercalate (by decide) fun word => isRun_of_mem_words

/-- A letter with an accent divides a text, whose cut ends without separators. -/
theorem words_are_maximal_runs_of_accent :
    let cut : Division :=
      ⟨[], [("caf".toList, "é_".toList), ("9x".toList, [])], by decide, by decide⟩
    words ("caf".toList ++ 'é' :: "_9x".toList) = words "caf".toList ++ words "_9x".toList ∧
      cut.text = "café_9x".toList ∧ words "café_9x".toList = cut.runs := by
  intro cut
  obtain ⟨-, hcut, happend, -⟩ := words_are_maximal_runs
  obtain ⟨d, -, hruns, hunique⟩ := hcut "café_9x".toList
  have htext : cut.text = "café_9x".toList := by decide
  exact ⟨happend 'é' (by decide) _ _, htext, by rw [← hruns, hunique cut htext]⟩

end EnumLabels.Text
