import EnumLabels.Proofs.Scan.Locality
import EnumLabels.Proofs.Text.Lines
import EnumLabels.Proofs.Text.Marker
import EnumLabels.Samples

/-!
# The line of a marker

A marker without line feeds lies within one line of a text, so the lines that stand above the first
line which holds it are as many as the line feeds before its first occurrence. Counted from one, the
number of that line is a call site from which the reading of a closure starts on the line itself.
-/

namespace EnumLabels

namespace Text

variable {marker : List Char}

/-- A part before a marker holds no character that the text does not hold. -/
theorem count_before_eq_zero {text : List Char} {c : Char} (hc : c ∉ text) :
    (before marker text).count c = 0 :=
  List.count_eq_zero.mpr fun hmem => hc ((prefix_before marker text).subset hmem)

/-- No line feed stands before a marker that the first line holds. -/
theorem count_before_of_infix (hmarker : '\n' ∉ marker) {line : List Char} (hline : '\n' ∉ line)
    (hholds : marker <:+: line) (rest : List Char) :
    (before marker (line ++ '\n' :: rest)).count '\n' = 0 := by
  by_cases hne : marker = []
  · subst hne
    rw [before_eq_nil List.nil_prefix, List.count_nil]
  · rw [before_append_cons hne hmarker, if_pos hholds, count_before_eq_zero hline]

/-- Behind a line that does not hold the marker the first occurrence lies one line feed further. -/
theorem count_before_append_lineFeed (hmarker : '\n' ∉ marker) {line : List Char}
    (hline : '\n' ∉ line) (hnone : ¬ marker <:+: line) (rest : List Char) :
    (before marker (line ++ '\n' :: rest)).count '\n' = (before marker rest).count '\n' + 1 := by
  have hne : marker ≠ [] := by
    rintro rfl
    exact hnone (List.nil_infix)
  have hhead : marker.head? ≠ some '\n' := fun hhead => hmarker (List.mem_of_mem_head? hhead)
  rw [before_append_cons hne hmarker, if_neg hnone, before_cons_of_head_ne hhead hne,
    List.count_append, List.count_eq_zero.mpr hline, Nat.zero_add, List.count_cons_self]

/-- Above the first line that holds a marker stand as many lines as line feeds before its first
occurrence. -/
theorem findIdx?_contains (hmarker : '\n' ∉ marker) {lines : List (List Char)} (hne : lines ≠ [])
    (hlines : ∀ line ∈ lines, '\n' ∉ line) :
    lines.findIdx? (contains marker) =
      if marker <:+: unlines lines then some ((before marker (unlines lines)).count '\n')
      else none := by
  induction lines with
  | nil => contradiction
  | cons line more ih =>
    obtain ⟨hline, hmore⟩ := List.forall_mem_cons.mp hlines
    cases more with
    | nil =>
      rw [List.findIdx?_cons, List.findIdx?_nil, unlines, count_before_eq_zero hline]
      simp only [contains_iff]
      rfl
    | cons next more =>
      have hrest := ih (List.cons_ne_nil next more) hmore
      have htext : unlines (line :: next :: more) = line ++ '\n' :: unlines (next :: more) := rfl
      rw [htext, List.findIdx?_cons, hrest]
      by_cases hholds : marker <:+: line
      · rw [if_pos (contains_iff.mpr hholds),
          if_pos ((infix_append_cons_iff hmarker line _).mpr (.inl hholds)),
          count_before_of_infix hmarker hline hholds]
      · rw [if_neg (by rwa [contains_iff])]
        simp only [infix_append_cons_iff hmarker, hholds, false_or,
          count_before_append_lineFeed hmarker hline hholds]
        split <;> rfl

/-- Above the first line of a text that holds a marker stand as many lines as line feeds before its
first occurrence. -/
theorem findIdx?_contains_lines (hmarker : '\n' ∉ marker) (text : List Char) :
    (lines text).findIdx? (contains marker) =
      if marker <:+: text then some ((before marker text).count '\n') else none := by
  have hne : lines text ≠ [] := splitWhere_ne_nil _ text
  have hfind := findIdx?_contains hmarker hne fun line => lineFeed_notMem_of_mem_lines
  rwa [unlines_lines] at hfind

end Text

variable {source marker : String}

/-- The line of a marker without line feeds is found if the text holds the marker. -/
theorem markerLine_eq (hmarker : '\n' ∉ marker.toList) :
    markerLine source marker =
      if marker.toList <:+: source.toList then
        .ok (1 + (Text.before marker.toList source.toList).count '\n')
      else .error (.markerNotFound marker) := by
  rw [markerLine, Text.findIdx?_contains_lines hmarker]
  by_cases hholds : marker.toList <:+: source.toList
  · simp only [if_pos hholds, Nat.add_comm]
  · simp only [if_neg hholds]

/-- A marker with a line feed is found on no line. -/
theorem markerLine_eq_error (hmarker : '\n' ∈ marker.toList) :
    markerLine source marker = .error (.markerNotFound marker) := by
  have hnone : (Text.lines source.toList).findIdx? (Text.contains marker.toList) = none := by
    rw [List.findIdx?_eq_none_iff]
    intro line hline
    rw [← Bool.not_eq_true, Text.contains_iff]
    exact fun hpart => Text.lineFeed_notMem_of_mem_lines hline (hpart.subset hmarker)
  rw [markerLine, hnone]

/-- A number, counted from one, of the line of a text on which a marker first occurs. -/
structure PointsAt (source marker : List Char) (n : Nat) : Prop where
  /-- The number is one more than the number of line feeds before the first occurrence. -/
  counts : ∃ front, Text.IsFirstOccurrence marker source front ∧ n = 1 + front.count '\n'
  /-- The line of this number holds the marker. -/
  holds : ∃ line, (Text.lines source)[n - 1]? = some line ∧ marker <:+: line
  /-- No line above it does. -/
  first : ∀ line ∈ (Text.lines source).take (n - 1), ¬ marker <:+: line
  /-- A closure near this call site is read from this line on. -/
  skips : ∀ braces, skipClosure braces (Text.lines source) n =
    (n - 1) + skipClosure braces ((Text.lines source).drop (n - 1)) 1

/-- A closure near a line of a text, counted from one, is read from this line on. -/
theorem skipClosure_succ (braces : Braces) {lines : List Line} {index : Nat}
    (hindex : index ≤ lines.length) :
    skipClosure braces lines (index + 1 : Nat) =
      index + skipClosure braces (lines.drop index) 1 := by
  have hlength : (lines.take index).length = index := List.length_take_of_le hindex
  have hstart : (((index + 1 : Nat) : Int) - 1).toNat = (lines.take index).length := by omega
  have hskip := skipClosure_append braces hstart (lines.drop index)
  rwa [List.take_append_drop, hlength] at hskip

/-- A marker that is found is found at its first occurrence. -/
theorem pointsAt_of_markerLine {n : Nat} (h : markerLine source marker = .ok n) :
    PointsAt source.toList marker.toList n := by
  have hmarker : '\n' ∉ marker.toList := by
    intro hmem
    rw [markerLine_eq_error hmem] at h
    contradiction
  have hholds : marker.toList <:+: source.toList := by
    by_contra hnone
    rw [markerLine_eq hmarker, if_neg hnone] at h
    contradiction
  have hfind := Text.findIdx?_contains_lines hmarker source.toList
  rw [if_pos hholds] at hfind
  rw [markerLine_eq hmarker, if_pos hholds] at h
  obtain rfl := Except.ok.inj h
  obtain ⟨hlt, hline, hfirst⟩ := List.findIdx?_eq_some_iff_getElem.mp hfind
  constructor
  case counts => exact ⟨_, Text.isFirstOccurrence_before hholds, rfl⟩
  case holds =>
    rw [Nat.add_sub_cancel_left]
    exact ⟨_, List.getElem?_eq_getElem hlt, Text.contains_iff.mp hline⟩
  case first =>
    intro line hmem
    rw [Nat.add_sub_cancel_left] at hmem
    obtain ⟨i, hi, rfl⟩ := List.mem_take_iff_getElem.mp hmem
    rw [← Text.contains_iff]
    exact hfirst i (by omega)
  case skips =>
    intro braces
    rw [Nat.add_sub_cancel_left, Nat.add_comm 1]
    exact skipClosure_succ braces hlt.le

/-- A marker without line feeds is found if and only if the text holds it, on the line of its first
occurrence, and a closure near that call site is read from this line on. A marker with a line feed
is never found. -/
theorem markerLine_points_at_first_occurrence (source marker : String) :
    ('\n' ∉ marker.toList →
      ((∃ e, markerLine source marker = .error e) ↔ ¬ marker.toList <:+: source.toList) ∧
      (marker.toList <:+: source.toList →
        ∃ n, markerLine source marker = .ok n ∧ PointsAt source.toList marker.toList n)) ∧
    ('\n' ∈ marker.toList → ∃ e, markerLine source marker = .error e) ∧
    ∀ e, markerLine source marker = .error e → e = .markerNotFound marker := by
  refine ⟨fun hmarker => ⟨?_, fun hholds => ?_⟩,
    fun hmarker => ⟨_, markerLine_eq_error hmarker⟩, ?_⟩
  · rw [markerLine_eq hmarker]
    split <;> simp [*]
  · have hline : markerLine source marker = _ := markerLine_eq hmarker
    rw [if_pos hholds] at hline
    exact ⟨_, hline, pointsAt_of_markerLine hline⟩
  · intro e he
    unfold markerLine at he
    split at he
    · contradiction
    · exact (Except.error.inj he).symm

/-- A marker that the second and the fourth line hold, above a closure and in it, and a marker with
a line feed. -/
theorem markerLine_points_at_first_occurrence_of_two :
    let source := "enum E \x7b\n  static let e = Gen \x7b\n  case a: 0\n  Gen \x7b\x7d \x7d\n\x7d"
    markerLine source "Gen \x7b" = .ok 2 ∧
      (∃ line, (Text.lines source.toList)[1]? = some line ∧ "Gen \x7b".toList <:+: line) ∧
      (∀ braces, skipClosure braces (Text.lines source.toList) 2 =
        1 + skipClosure braces ((Text.lines source.toList).drop 1) 1) ∧
      ∃ e, markerLine source "\x7b\n" = .error e := by
  intro source
  obtain ⟨hfound, -⟩ := markerLine_points_at_first_occurrence source "Gen \x7b"
  obtain ⟨-, hlineFeed, -⟩ := markerLine_points_at_first_occurrence source "\x7b\n"
  obtain ⟨n, hn, hpoints⟩ := (hfound (by decide)).2 (by decide)
  have hindex : (Text.lines source.toList).findIdx? (Text.contains "Gen \x7b".toList) = some 1 := by
    decide +kernel
  have hline : markerLine source "Gen \x7b" = .ok 2 := by rw [markerLine, hindex]
  obtain rfl := Except.ok.inj (hn.symm.trans hline)
  exact ⟨hline, hpoints.holds, hpoints.skips, hlineFeed (by decide)⟩

end EnumLabels
