import EnumLabels.Proofs.Scan.Nesting
import EnumLabels.Proofs.Settings.Use
import Mathlib.Data.Nat.Find

/-!
# The closing line holds the first return to zero

The lines ahead of a call site are one text, wherever its lines end. Up to a position of it the
depth is the number of its open braces less that of its close braces, so the closure is closed at
the first position up to which braces have opened and as many have closed. That is a condition on
two counts, and the line that closes the closure is the line of that position.
-/

namespace EnumLabels

/-- The number of the line that holds a position of the text that some lines make up. The first line
has the number zero. -/
def lineAt : List Line → Nat → Nat
  | [], _ => 0
  | line :: lines, n => if n < line.length then 0 else lineAt lines (n - line.length) + 1

/-- The lines around a position of their text. -/
theorem exists_split_lineAt {lines : List Line} {n : Nat} (h : n < lines.flatten.length) :
    ∃ before front c back after, lines = before ++ (front ++ c :: back) :: after ∧
      before.length = lineAt lines n ∧ (before.flatten ++ front).length = n := by
  induction lines generalizing n with
  | nil => simp at h
  | cons first lines ih =>
    rw [lineAt]
    split
    · next hn =>
      refine ⟨[], first.take n, first[n], first.drop (n + 1), lines, ?_, rfl, ?_⟩
      · rw [List.getElem_cons_drop, List.take_append_drop, List.nil_append]
      · simp
        omega
    · next hn =>
      rw [List.flatten_cons, List.length_append] at h
      obtain ⟨before, front, c, back, after, rfl, hbefore, hfront⟩ :=
        ih (n := n - first.length) (by omega)
      refine ⟨first :: before, front, c, back, after, rfl, ?_, ?_⟩
      · rw [List.length_cons, hbefore]
      · rw [List.flatten_cons, List.append_assoc, List.length_append, hfront]
        omega

/-- A position of a line is on the line. -/
theorem lineAt_split (before : List Line) (front : List Char) (c : Char) (back : List Char)
    (after : List Line) :
    lineAt (before ++ (front ++ c :: back) :: after) (before.flatten ++ front).length =
      before.length := by
  induction before with
  | nil => simp [lineAt]
  | cons line before ih =>
    have hpast : ¬ ((line :: before).flatten ++ front).length < line.length := by
      simp
    have hrest : ((line :: before).flatten ++ front).length - line.length =
        (before.flatten ++ front).length := by
      simp
    rw [List.cons_append, lineAt, if_neg hpast, hrest, ih, List.length_cons]

/-- A position of the text of some lines is on one of them. -/
theorem lineAt_lt {lines : List Line} {n : Nat} (h : n < lines.flatten.length) :
    lineAt lines n < lines.length := by
  obtain ⟨before, front, c, back, after, rfl, hline, -⟩ := exists_split_lineAt h
  rw [← hline, List.length_append, List.length_cons]
  omega

/-- The text around a character of a line. -/
theorem flatten_split (before : List Line) (front : List Char) (c : Char) (back : List Char)
    (after : List Line) :
    (before ++ (front ++ c :: back) :: after).flatten =
      (before.flatten ++ front) ++ c :: (back ++ after.flatten) := by
  simp

/-- The text up to a character of a line, which is included. -/
theorem take_flatten_split (before : List Line) (front : List Char) (c : Char) (back : List Char)
    (after : List Line) :
    (before ++ (front ++ c :: back) :: after).flatten.take
        ((before.flatten ++ front).length + 1) = before.flatten ++ front ++ [c] := by
  rw [flatten_split, List.append_cons]
  exact List.take_left' List.length_append

namespace Braces

/-- Up to a position of a text, which is included, at least one brace opens and `height` more open
than close. -/
structure ReachesAt (b : Braces) (height : Nat) (text : List Char) (n : Nat) : Prop where
  lt_length : n < text.length
  opens_pos : 0 < b.opens (text.take (n + 1))
  opens_eq : b.opens (text.take (n + 1)) = b.closes (text.take (n + 1)) + height

/-- The first position at which a text reaches a height. -/
structure IsFirstReach (b : Braces) (height : Nat) (text : List Char) (n : Nat) : Prop where
  reaches : b.ReachesAt height text n
  first : ∀ m < n, ¬ b.ReachesAt height text m

instance (b : Braces) (height : Nat) (text : List Char) (n : Nat) :
    Decidable (b.ReachesAt height text n) :=
  decidable_of_iff (n < text.length ∧ 0 < b.opens (text.take (n + 1)) ∧
    b.opens (text.take (n + 1)) = b.closes (text.take (n + 1)) + height)
    ⟨fun h => ⟨h.1, h.2.1, h.2.2⟩, fun h => ⟨h.lt_length, h.opens_pos, h.opens_eq⟩⟩

instance (b : Braces) (height : Nat) (text : List Char) (n : Nat) :
    Decidable (b.IsFirstReach height text n) :=
  decidable_of_iff (b.ReachesAt height text n ∧ ∀ m < n, ¬ b.ReachesAt height text m)
    ⟨fun h => ⟨h.1, h.2⟩, fun h => ⟨h.reaches, h.first⟩⟩

variable {b : Braces} {height : Nat} {text : List Char}

/-- More text leaves the positions at which a height is reached. -/
theorem ReachesAt.append {n : Nat} (h : b.ReachesAt height text n) (more : List Char) :
    b.ReachesAt height (text ++ more) n := by
  have htake : (text ++ more).take (n + 1) = text.take (n + 1) :=
    List.take_append_of_le_length h.lt_length
  refine ⟨?_, ?_, ?_⟩
  · rw [List.length_append]
    exact Nat.lt_add_right _ h.lt_length
  · rw [htake]
    exact h.opens_pos
  · rw [htake]
    exact h.opens_eq

/-- A text that reaches a height has a first position at which it does. -/
theorem exists_isFirstReach {n : Nat} (h : b.ReachesAt height text n) :
    ∃ m, b.IsFirstReach height text m := by
  have hexists : ∃ m, b.ReachesAt height text m := ⟨n, h⟩
  exact ⟨Nat.find hexists, Nat.find_spec hexists, fun m hm => Nat.find_min hexists hm⟩

/-- A text first reaches a height at one position only. -/
theorem IsFirstReach.unique {n m : Nat} (hn : b.IsFirstReach height text n)
    (hm : b.IsFirstReach height text m) : n = m := by
  rcases Nat.lt_trichotomy n m with h | h | h
  · exact absurd hn.reaches (hm.first n h)
  · exact h
  · exact absurd hm.reaches (hn.first m h)

end Braces

section Closing

variable {b : Braces} (hdistinct : b.AreDistinct)
include hdistinct

/-- A nesting that is not closed within a text does not return in it. -/
theorem Nesting.readLine?_start_eq_some {text : List Char}
    (h : ∀ n, ¬ b.ReachesAt 0 text n) :
    start.readLine? b text = some (start.after b text) := by
  rw [readLine?_eq_some_iff]
  refine ⟨rfl, fun part hpart hne => ?_⟩
  obtain ⟨n, hn⟩ : ∃ n, part.length = n + 1 :=
    Nat.exists_eq_succ_of_ne_zero (mt List.length_eq_zero_iff.mp hne)
  have htake : part = text.take (n + 1) := hn ▸ List.prefix_iff_eq_take.mp hpart
  by_contra hclosed
  rw [Bool.not_eq_false, isClosed_after_start_iff hdistinct, htake] at hclosed
  have hlength := hpart.length_le
  exact h n ⟨by omega, hclosed.1, hclosed.2⟩

/-- The closing line holds the first position at which the text of the lines returns. -/
theorem closingLine?_of_isFirstReach {lines : List Line} {n : Nat}
    (h : b.IsFirstReach 0 lines.flatten n) (index : Nat) :
    closingLine? b .start index lines = some (index + lineAt lines n) := by
  obtain ⟨before, front, c, back, after, rfl, hline, hn⟩ := exists_split_lineAt h.reaches.lt_length
  have hread : Nesting.start.readLine? b (before.flatten ++ front) =
      some (Nesting.start.after b (before.flatten ++ front)) := by
    apply Nesting.readLine?_start_eq_some hdistinct
    intro m hm
    apply h.first m (hn ▸ hm.lt_length)
    rw [flatten_split]
    exact hm.append _
  have hclosed : ((Nesting.start.after b (before.flatten ++ front)).next b c).isClosed = true := by
    have hafter := Nesting.isClosed_after_start_iff hdistinct (before.flatten ++ front ++ [c])
    rw [Nesting.after, List.foldl_append, ← take_flatten_split before front c back after, hn]
      at hafter
    exact hafter.mpr ⟨h.reaches.opens_pos, h.reaches.opens_eq⟩
  rw [closingLine?_split hread hclosed, hline]

/-- No line closes a closure if the text of the lines does not return. -/
theorem closingLine?_eq_none {lines : List Line} (h : ∀ n, ¬ b.ReachesAt 0 lines.flatten n)
    (index : Nat) : closingLine? b .start index lines = none := by
  have hpassed := closingLine?_append b (Nesting.readLine?_start_eq_some hdistinct h) index []
  rwa [List.append_nil] at hpassed

end Closing

namespace Settings

variable {s : Settings}

/-- A setting that is a character is the text of it. -/
theorem eq_singleton_of_character? {d : Data} {c : Char} (h : character? d = some c) :
    d = .str (String.singleton c) := by
  unfold character? at h
  split at h
  · next c' htext =>
    obtain rfl := Option.some.inj h
    cases d with
    | str content =>
      cases content with
      | chars string =>
        have hlist : string.toList = [c'] := Except.ok.inj htext
        rw [← String.ofList_toList (s := string), hlist]
        rfl
      | points codes => contradiction
    | _ => contradiction
  · contradiction

/-- Settings that pass their checks have distinct braces. -/
theorem areDistinct_braces (hcheck : s.check = .ok s) : s.braces.AreDistinct := by
  intro c hopen hclose
  have hsame := (isValid_of_check hcheck).braces_ne
  rw [eq_singleton_of_character? hopen, eq_singleton_of_character? hclose] at hsame
  simp [Data.same, Data.sameScalar, Data.toInt?] at hsame

end Settings

section Skipping

variable {b : Braces} (hdistinct : b.AreDistinct) (lines : List Line) (line : Int)
include hdistinct

/-- The closing line that is found holds the first position at which the text of the lines ahead
returns. -/
theorem skipClosure_of_isFirstReach {n : Nat}
    (h : b.IsFirstReach 0 (lines.drop (line - 1).toNat).flatten n) :
    skipClosure b lines line = (line - 1).toNat + lineAt (lines.drop (line - 1).toNat) n := by
  rw [skipClosure, closingLine?_of_isFirstReach hdistinct h]
  rfl

/-- The number of lines is found if the text of the lines ahead does not return. -/
theorem skipClosure_eq_length
    (h : ∀ n, ¬ b.ReachesAt 0 (lines.drop (line - 1).toNat).flatten n) :
    skipClosure b lines line = lines.length := by
  rw [skipClosure, closingLine?_eq_none hdistinct h]
  rfl

/-- A line is found if the text of the lines ahead returns. -/
theorem skipClosure_lt_of_isFirstReach {n : Nat}
    (h : b.IsFirstReach 0 (lines.drop (line - 1).toNat).flatten n) :
    skipClosure b lines line < lines.length := by
  have hline := lineAt_lt h.reaches.lt_length
  rw [List.length_drop] at hline
  rw [skipClosure_of_isFirstReach hdistinct lines line h]
  omega

/-- Either the text of the lines ahead returns and a line is found, or the number of lines is. -/
theorem skipClosure_cases :
    (∃ n, b.IsFirstReach 0 (lines.drop (line - 1).toNat).flatten n ∧
        skipClosure b lines line = (line - 1).toNat + lineAt (lines.drop (line - 1).toNat) n ∧
        skipClosure b lines line < lines.length) ∨
      (∀ n, ¬ b.ReachesAt 0 (lines.drop (line - 1).toNat).flatten n) ∧
        skipClosure b lines line = lines.length := by
  by_cases h : ∃ n, b.ReachesAt 0 (lines.drop (line - 1).toNat).flatten n
  · obtain ⟨n, hn⟩ := h
    obtain ⟨m, hm⟩ := Braces.exists_isFirstReach hn
    exact .inl ⟨m, hm, skipClosure_of_isFirstReach hdistinct lines line hm,
      skipClosure_lt_of_isFirstReach hdistinct lines line hm⟩
  · rw [not_exists] at h
    exact .inr ⟨h, skipClosure_eq_length hdistinct lines line h⟩

end Skipping

/-- Up to line one, reading starts where it does for line zero. -/
theorem skipClosure_of_le_one (b : Braces) (lines : List Line) {line : Int} (h : line ≤ 1) :
    skipClosure b lines line = skipClosure b lines 0 := by
  have hstart : (line - 1).toNat = ((0 : Int) - 1).toNat := by omega
  rw [skipClosure, skipClosure, hstart]

/-- From the line before the call site on, the first position up to which braces have opened and as
many have closed is on the line that is found, and there is no such position exactly when the number
of lines is found. All lines up to line one are read alike. -/
theorem skipClosure_first_return {s : Settings} (hcheck : s.check = .ok s) (lines : List Line)
    (line : Int) :
    let start := (max 0 (line - 1)).toNat
    let ahead := lines.drop start
    let found := skipClosure s.braces lines line
    (∀ n, s.braces.IsFirstReach 0 ahead.flatten n →
      found = start + lineAt ahead n ∧ found < lines.length) ∧
    ((∀ n, ¬ s.braces.ReachesAt 0 ahead.flatten n) → found = lines.length) ∧
    (found < lines.length →
      start ≤ found ∧
        ∃ n, s.braces.IsFirstReach 0 ahead.flatten n ∧ found = start + lineAt ahead n) ∧
    (line ≤ 1 → found = skipClosure s.braces lines 0) := by
  intro start ahead found
  have hstart : start = (line - 1).toNat := by omega
  have hdistinct := Settings.areDistinct_braces hcheck
  simp only [ahead, found, hstart]
  refine ⟨fun n hn => ⟨?_, ?_⟩, ?_, fun hlt => ?_, ?_⟩
  · exact skipClosure_of_isFirstReach hdistinct lines line hn
  · exact skipClosure_lt_of_isFirstReach hdistinct lines line hn
  · exact skipClosure_eq_length hdistinct lines line
  · obtain ⟨n, hn, hline, -⟩ | ⟨-, hlength⟩ := skipClosure_cases hdistinct lines line
    · exact ⟨hline ▸ Nat.le_add_right _ _, n, hn, hline⟩
    · exact absurd hlength hlt.ne
  · exact skipClosure_of_le_one s.braces lines

/-- A closure that begins on the second line, with another one inside it, is closed on the third. -/
theorem skipClosure_first_return_nested :
    ({} : Settings).check = .ok {} ∧
      ({} : Settings).braces.IsFirstReach 0 "Gen \x7b f \x7b 1 \x7d\x7d".toList 13 ∧
      skipClosure ({} : Settings).braces
        ["\x7d".toList, "Gen \x7b f \x7b 1 \x7d".toList, "\x7d".toList] 2 = 2 := by
  have hcheck : ({} : Settings).check = .ok {} := rfl
  have hfirst :
      ({} : Settings).braces.IsFirstReach 0 "Gen \x7b f \x7b 1 \x7d\x7d".toList 13 := by decide
  have hreturn := skipClosure_first_return hcheck
    ["\x7d".toList, "Gen \x7b f \x7b 1 \x7d".toList, "\x7d".toList] 2
  exact ⟨hcheck, hfirst, (hreturn.1 13 hfirst).1⟩

end EnumLabels
