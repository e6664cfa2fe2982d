import EnumLabels.Proofs.Yaml.ScalarToken
import EnumLabels.Proofs.Yaml.Tree
import EnumLabels.Yaml.Value

/-!
# Short keys

A key of at most sixty printable ASCII characters is written on one line before its colon, plain or
between apostrophes. Between apostrophes it is at most twice as long, so the colon is near enough
for the reader, to whom it is a key and not one that merges mappings.
-/

namespace EnumLabels.Yaml

/-- Keys of printable ASCII that are not empty and not long. -/
structure IsShortKey (key : String) : Prop where
  nonempty : key ≠ ""
  short : key.length ≤ 60
  printable : ∀ c ∈ key.toList, ' ' ≤ c ∧ c ≤ '~'

/-- Whether a key is short is decided character by character. -/
instance (key : String) : Decidable (IsShortKey key) :=
  decidable_of_iff (key ≠ "" ∧ key.length ≤ 60 ∧
      key.toList.all (fun c => decide (' ' ≤ c ∧ c ≤ '~')) = true) (by
    simp only [List.all_eq_true, decide_eq_true_eq]
    exact ⟨fun ⟨hne, hshort, hall⟩ => ⟨hne, hshort, hall⟩,
      fun h => ⟨h.nonempty, h.short, h.printable⟩⟩)

/-- A text that is read as a key. -/
def DenotesKey (text : List Char) (key : String) : Prop :=
  ∃ t node, Lexer.IsKey text t ∧ Node.IsNode false [t] node ∧ node.key? = some (.str key) ∧
    node.isMergeKey = false

/-- A string is written in its style. -/
theorem write_ofString (s : String) (folds : Bool) (indent column : Nat) :
    (Scalar.ofString s).write folds indent column =
      match styleOf s.toList with
      | .plain => foldPlain folds indent column false s.toList
      | .single => '\'' :: (foldSingle folds indent (column + 1) none s.toList ++ ['\''])
      | .double => writeDouble folds indent column s := by
  cases hstyle : styleOf s.toList <;> simp only [Scalar.ofString, Scalar.write, hstyle]

/-- Text that denotes itself. -/
theorem plainOf_of_isText {text : List Char} (h : Plain.isText text = true) :
    Plain.of text = .itself := by
  unfold Plain.isText at h
  split at h
  · assumption
  · contradiction

namespace IsShortKey

variable {key : String} (h : IsShortKey key)
include h

/-- A short key is ordinary. -/
theorem all_isOrdinary : key.toList.all isOrdinary = true := by
  rw [List.all_eq_true]
  intro c hc
  simp [isOrdinary, h.printable c hc]

/-- A short key has no line ends. -/
theorem noBreak : '\n' ∉ key.toList := by
  intro hmem
  exact absurd (h.printable _ hmem).1 (by decide)

/-- A short key has no other line ends either. -/
theorem any_isBreak : key.toList.any isBreak = false := by
  rw [List.any_eq_false]
  intro c hc
  rw [isBreak_of_isOrdinary (List.all_eq_true.mp h.all_isOrdinary c hc), beq_iff_eq]
  rintro rfl
  exact h.noBreak hc

/-- A short key can be written between apostrophes. -/
theorem isSafeSingle : isSafeSingle key.toList = true := by
  have hloose {text : List Char} (hbreak : text.any isBreak = false) :
      hasBlankAtBreak text = false := by
    induction text with
    | nil => rfl
    | cons c text ih =>
      cases text with
      | nil => rfl
      | cons d text =>
        rw [List.any_cons, Bool.or_eq_false_iff] at hbreak
        have hd := hbreak.2
        rw [List.any_cons, Bool.or_eq_false_iff] at hd
        rw [hasBlankAtBreak, hbreak.1, hd.1, ih hbreak.2, Bool.and_false, Bool.false_and]
        rfl
  rw [Yaml.isSafeSingle, h.all_isOrdinary, hloose h.any_isBreak]
  rfl

/-- A short key has characters. -/
theorem toList_ne_nil : key.toList ≠ [] := by
  intro hnil
  exact h.nonempty (String.toList_eq_nil_iff.mp hnil)

/-- A short key can be written before its colon. -/
theorem isSimpleKey : (Scalar.ofString key).isSimpleKey = true := by
  have hempty : key.isEmpty = false := by
    simpa using h.nonempty
  have hshort : key.length + 5 < 128 := by
    have := h.short
    omega
  simp [Scalar.isSimpleKey, Scalar.ofString, Scalar.hasBreak, CodeString.isEmpty,
    CodeString.length, h.any_isBreak, hempty, hshort]

/-- A short key is read as a key. -/
theorem denotesKey {indent : Nat} (hindent : 0 < indent) (column : Nat) :
    DenotesKey ((Scalar.ofString key).write false indent column) key := by
  have hlength : key.toList.length ≤ 60 := h.short
  have hstyle : styleOf key.toList =
      if isSafePlain key.toList && Plain.isText key.toList then .plain else .single := by
    rw [styleOf, h.isSafeSingle, if_pos rfl]
  rw [write_ofString, hstyle]
  split_ifs with hplain
  · rw [Bool.and_eq_true] at hplain
    have hitself := plainOf_of_isText hplain.2
    simp only [foldPlain_false]
    refine ⟨.plain key.toList, .plain key.toList, Lexer.isKey_plain hplain.1 h.toList_ne_nil
      (by omega), Node.isNode_plain false _, ?_, ?_⟩
    · simp [Node.key?, Node.scalar?, hitself]
    · simp [Node.isMergeKey, hitself]
  · obtain ⟨hline, hdoubled⟩ := noBreak_length_foldSingle indent (column + 1) none h.noBreak
    have hread (rest : List Char) (hrest : rest.head? ≠ some '\'') : Lexer.singleQuoted
        (foldSingle false indent (column + 1) none key.toList ++ ['\''] ++ rest) =
          .ok (.chars key, rest) := by
      rw [Lexer.singleQuoted, readSingle?_written hindent false _ h.isSafeSingle hrest]
      simp
    refine ⟨.quoted key, .quoted key, Lexer.isKey_quoted Lexer.readToken_apostrophe hread
      (by decide) ?_ ?_ ?_, Node.isNode_quoted false _, rfl, rfl⟩
    · have hordinary := all_isOrdinary_foldSingle false indent (column + 1) none h.all_isOrdinary
      rw [List.all_cons, List.all_append, hordinary]
      rfl
    · simp [hline]
    · rw [List.length_cons, List.length_append, List.length_singleton]
      omega

end IsShortKey

end EnumLabels.Yaml
