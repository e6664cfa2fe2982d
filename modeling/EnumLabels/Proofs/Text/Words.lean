import EnumLabels.Text.Blank
import EnumLabels.Text.Word
import Mathlib.Data.List.TakeWhile

/-!
# The words around a separator

The words of a text are those before any one of its separators followed by those after it.
Together with the words of a text of one kind of characters only, this determines the words of
every text. The first of them is the leftmost run of letters and digits that cannot be made longer.
-/

namespace EnumLabels.Text

/-- A letter or digit is not blank. -/
theorem isBlank_of_isWordChar {c : Char} (h : isWordChar c = true) : isBlank c = false := by
  have hrange : 48 ≤ c.toNat ∧ c.toNat ≤ 122 := by
    change (decide (65 ≤ c.val ∧ c.val ≤ 90) || (97 ≤ c.val && c.val ≤ 122) ||
      (48 ≤ c.val && c.val ≤ 57)) = true at h
    simp only [Bool.or_eq_true, Bool.and_eq_true, decide_eq_true_eq, UInt32.le_iff_toNat_le,
      UInt32.reduceToNat] at h
    change 48 ≤ c.val.toNat ∧ c.val.toNat ≤ 122
    omega
  simp [isBlank]
  omega

/-- A blank is no letter or digit. -/
theorem isWordChar_of_isBlank {c : Char} (h : isBlank c = true) : isWordChar c = false := by
  rw [← Bool.not_eq_true]
  intro hword
  rw [isBlank_of_isWordChar hword] at h
  contradiction

/-- A text has at least one piece. -/
theorem splitWhere_ne_nil (isSeparator : Char → Bool) (text : List Char) :
    splitWhere isSeparator text ≠ [] := by
  cases text with
  | nil => simp [splitWhere]
  | cons c rest =>
    simp only [splitWhere]
    split
    · simp
    · split <;> simp

/-- A separator divides the pieces of a text. -/
theorem splitWhere_append_cons {isSeparator : Char → Bool} {c : Char} (h : isSeparator c = true)
    (text more : List Char) :
    splitWhere isSeparator (text ++ c :: more) =
      splitWhere isSeparator text ++ splitWhere isSeparator more := by
  induction text with
  | nil => simp [splitWhere, h]
  | cons d rest ih =>
    simp only [List.cons_append, splitWhere, ih]
    split
    · rfl
    · cases hpieces : splitWhere isSeparator rest with
      | nil => exact absurd hpieces (splitWhere_ne_nil isSeparator rest)
      | cons piece pieces => rfl

/-- A text without separators is one piece. -/
theorem splitWhere_eq_singleton {isSeparator : Char → Bool} {text : List Char}
    (h : ∀ c ∈ text, isSeparator c = false) : splitWhere isSeparator text = [text] := by
  induction text with
  | nil => rfl
  | cons c rest ih =>
    obtain ⟨hc, hrest⟩ := List.forall_mem_cons.mp h
    simp [splitWhere, hc, ih hrest]

/-- The words of a text are those on the two sides of a separator. -/
theorem words_append_cons {c : Char} (h : isWordChar c = false) (text more : List Char) :
    words (text ++ c :: more) = words text ++ words more := by
  rw [words, splitWhere_append_cons (by simpa using h), List.filter_append, words, words]

/-- Separators in front make no difference to the words of a text. -/
theorem words_append {separators : List Char} (h : ∀ c ∈ separators, isWordChar c = false)
    (text : List Char) : words (separators ++ text) = words text := by
  induction separators with
  | nil => rfl
  | cons c rest ih =>
    obtain ⟨hc, hrest⟩ := List.forall_mem_cons.mp h
    exact (words_append_cons hc [] _).trans (ih hrest)

/-- The words of a text and of another one that does not begin with a letter or digit are those of
both. -/
theorem words_append_of_head {more : List Char} (h : ∀ c ∈ more.head?, isWordChar c = false)
    (text : List Char) : words (text ++ more) = words text ++ words more := by
  cases more with
  | nil =>
    rw [List.append_nil]
    exact (List.append_nil _).symm
  | cons c rest =>
    rw [words_append_cons (h c rfl)]
    exact congrArg _ (words_append_cons (h c rfl) [] rest).symm

/-- Letters and digits alone are one word. -/
theorem words_eq_singleton {word : List Char} (hne : word ≠ [])
    (h : ∀ c ∈ word, isWordChar c = true) : words word = [word] := by
  rw [words, splitWhere_eq_singleton (by simpa using h)]
  simp [hne]

/-- Letters and digits between separators are a word. -/
theorem words_separated {separators word : List Char}
    (hseparators : ∀ c ∈ separators, isWordChar c = false) (hne : word ≠ [])
    (hword : ∀ c ∈ word, isWordChar c = true) {tail : List Char}
    (htail : ∀ c ∈ tail.head?, isWordChar c = false) :
    words (separators ++ word ++ tail) = word :: words tail := by
  rw [List.append_assoc, words_append hseparators, words_append_of_head htail,
    words_eq_singleton hne hword]
  rfl

/-- Separators alone hold no words. -/
theorem words_eq_nil {text : List Char} (h : ∀ c ∈ text, isWordChar c = false) :
    words text = [] := by
  have hwords := words_append h []
  rwa [List.append_nil] at hwords

/-- The leftmost run of letters and digits of a text, which ends with the text or at a separator. -/
def IsFirstWord (text word : List Char) : Prop :=
  ∃ separators tail, text = separators ++ word ++ tail ∧
    (∀ c ∈ separators, isWordChar c = false) ∧ word ≠ [] ∧ (∀ c ∈ word, isWordChar c = true) ∧
    ∀ c ∈ tail.head?, isWordChar c = false

/-- The words of a text begin with its first word. -/
theorem IsFirstWord.exists_words_eq {text word : List Char} (h : IsFirstWord text word) :
    ∃ more, words text = word :: more := by
  obtain ⟨separators, tail, rfl, hseparators, hne, hword, htail⟩ := h
  exact ⟨words tail, words_separated hseparators hne hword htail⟩

/-- A text consists of separators or has a first word. -/
theorem exists_isFirstWord (text : List Char) :
    (∀ c ∈ text, isWordChar c = false) ∨ ∃ word, IsFirstWord text word := by
  induction text with
  | nil => simp
  | cons c rest ih =>
    cases hc : isWordChar c with
    | true =>
      refine .inr ⟨c :: rest.takeWhile isWordChar, [], rest.dropWhile isWordChar, ?_, by simp,
        by simp, ?_, ?_⟩
      · rw [List.nil_append, List.cons_append, List.takeWhile_append_dropWhile]
      · exact List.forall_mem_cons.mpr ⟨hc, fun d hd => List.mem_takeWhile_imp hd⟩
      · intro d hd
        have hhead := List.head?_dropWhile_not isWordChar rest
        rw [Option.mem_def.mp hd] at hhead
        simpa using hhead
    | false =>
      rcases ih with hnone | ⟨word, separators, tail, rfl, hseparators, hword⟩
      · exact .inl (List.forall_mem_cons.mpr ⟨hc, hnone⟩)
      · exact .inr ⟨word, c :: separators, tail, rfl,
          List.forall_mem_cons.mpr ⟨hc, hseparators⟩, hword⟩

/-- A text has no words exactly if it consists of separators. -/
theorem words_eq_nil_iff {text : List Char} :
    words text = [] ↔ ∀ c ∈ text, isWordChar c = false := by
  refine ⟨fun h => ?_, words_eq_nil⟩
  rcases exists_isFirstWord text with hnone | ⟨word, hword⟩
  · exact hnone
  · obtain ⟨more, hwords⟩ := hword.exists_words_eq
    rw [hwords] at h
    contradiction

/-- The words of a text begin with a word exactly if it is the first one. -/
theorem head?_words_eq_some_iff {text word : List Char} :
    (words text).head? = some word ↔ IsFirstWord text word := by
  constructor
  · intro h
    rcases exists_isFirstWord text with hnone | ⟨first, hfirst⟩
    · rw [words_eq_nil hnone] at h
      contradiction
    · obtain ⟨more, hwords⟩ := hfirst.exists_words_eq
      rw [hwords, List.head?_cons] at h
      obtain rfl := Option.some.inj h
      exact hfirst
  · intro h
    obtain ⟨more, hwords⟩ := h.exists_words_eq
    rw [hwords, List.head?_cons]

/-- The first word of two texts, of which the second one does not begin with a letter or digit, is that
of the first one if it has words, and otherwise that of the second one. -/
theorem isFirstWord_append_iff {text more word : List Char}
    (h : ∀ c ∈ more.head?, isWordChar c = false) :
    IsFirstWord (text ++ more) word ↔
      IsFirstWord text word ∨ (∀ c ∈ text, isWordChar c = false) ∧ IsFirstWord more word := by
  rw [← head?_words_eq_some_iff, words_append_of_head h, List.head?_append, Option.or_eq_some_iff,
    List.head?_eq_none_iff, words_eq_nil_iff, head?_words_eq_some_iff, head?_words_eq_some_iff]

end EnumLabels.Text
