import EnumLabels.Settings

/-!
# The checks on settings

Settings are refused for the first check that they do not pass, and kept as they are if they pass
all of them. So checked settings have a keyword and a comment marker that are not empty and two
different braces of length one, whatever kind of values these are.
-/

namespace EnumLabels.Settings

/-- The cause to refuse a value for a brace, if there is one. -/
def braceFault? (d : Data) : Option Error :=
  match d.length? with
  | some 1 => none
  | some _ => some .braceNotSingle
  | none => some .wrongType

/-- For each check the cause to refuse settings, in the order in which settings are checked. -/
def faults (s : Settings) : List (Option Error) :=
  [if s.keyword.isTrue then none else some .emptyKeyword,
    if s.commentMarker.isTrue then none else some .emptyCommentMarker,
    braceFault? s.openBrace, braceFault? s.closeBrace,
    if s.openBrace.same s.closeBrace then some .equalBraces else none]

/-- Settings with a keyword and a comment marker that are not empty, and two different braces of
length one. -/
structure IsValid (s : Settings) : Prop where
  keyword : s.keyword.isTrue = true
  commentMarker : s.commentMarker.isTrue = true
  openBrace : s.openBrace.length? = some 1
  closeBrace : s.closeBrace.length? = some 1
  braces_ne : s.openBrace.same s.closeBrace = false

/-- A value is refused as a brace if and only if it does not have length one. -/
theorem braceFault?_eq_none_iff {d : Data} : braceFault? d = none ↔ d.length? = some 1 := by
  unfold braceFault?
  split <;> simp_all

/-- The check of a brace passes, fails or asks for a length that is not there. -/
theorem isSingle_cases (d : Data) :
    (isSingle d = .ok true ∧ braceFault? d = none) ∨
      (isSingle d = .ok false ∧ braceFault? d = some .braceNotSingle) ∨
      (isSingle d = .error .wrongType ∧ braceFault? d = some .wrongType) := by
  unfold isSingle braceFault?
  cases d.length? with
  | none => simp
  | some n =>
    by_cases hn : n = 1
    · simp [hn]
    · simp [hn]

/-- Settings are refused for the first check that they do not pass. -/
theorem check_eq_findSome? (s : Settings) :
    s.check = match s.faults.findSome? id with
      | some e => .error e
      | none => .ok s := by
  cases hkeyword : s.keyword.isTrue with
  | false =>
    simp only [check, faults, hkeyword]
    rfl
  | true =>
    cases hmarker : s.commentMarker.isTrue with
    | false =>
      simp only [check, faults, hkeyword, hmarker]
      rfl
    | true =>
      obtain ⟨hopen, hfault⟩ | ⟨hopen, hfault⟩ | ⟨hopen, hfault⟩ := isSingle_cases s.openBrace
      case inr.inl | inr.inr =>
        simp only [check, faults, hkeyword, hmarker, hopen, hfault]
        rfl
      obtain ⟨hclose, hfault'⟩ | ⟨hclose, hfault'⟩ | ⟨hclose, hfault'⟩ :=
        isSingle_cases s.closeBrace
      case inr.inl | inr.inr =>
        simp only [check, faults, hkeyword, hmarker, hopen, hfault, hclose, hfault']
        rfl
      cases hbraces : s.openBrace.same s.closeBrace with
      | true =>
        simp only [check, faults, hkeyword, hmarker, hopen, hfault, hclose, hfault', hbraces]
        rfl
      | false =>
        simp only [check, faults, hkeyword, hmarker, hopen, hfault, hclose, hfault', hbraces]
        rfl

/-- Settings pass all checks if and only if they are valid. -/
theorem findSome?_faults_eq_none_iff (s : Settings) :
    s.faults.findSome? id = none ↔ s.IsValid := by
  have hbrace (d : Data) : braceFault? d = none ↔ d.length? = some 1 := braceFault?_eq_none_iff
  simp only [List.findSome?_eq_none_iff, faults, List.forall_mem_cons, id_eq, hbrace]
  constructor
  · rintro ⟨hkeyword, hmarker, hopen, hclose, hbraces, -⟩
    exact ⟨by simpa using hkeyword, by simpa using hmarker, hopen, hclose, by simpa using hbraces⟩
  · rintro ⟨hkeyword, hmarker, hopen, hclose, hbraces⟩
    exact ⟨by simp [hkeyword], by simp [hmarker], hopen, hclose, by simp [hbraces], by simp⟩

/-- Settings that pass their checks are kept as they are, and they are valid. -/
theorem check_eq_ok_iff {s t : Settings} : s.check = .ok t ↔ t = s ∧ s.IsValid := by
  rw [check_eq_findSome?, ← findSome?_faults_eq_none_iff]
  cases s.faults.findSome? id with
  | none => simp [eq_comm]
  | some e => simp

/-- Settings are refused for the first fault. -/
theorem check_eq_error_iff {s : Settings} {e : Error} :
    s.check = .error e ↔ s.faults.findSome? id = some e := by
  rw [check_eq_findSome?]
  cases s.faults.findSome? id with
  | none => simp
  | some e => simp

/-- Settings that were checked are valid. -/
theorem isValid_of_check {s : Settings} (h : s.check = .ok s) : s.IsValid :=
  (check_eq_ok_iff.mp h).2

/-- The default settings are valid. -/
theorem isValid_default : IsValid {} := ⟨rfl, rfl, rfl, rfl, rfl⟩

end EnumLabels.Settings
