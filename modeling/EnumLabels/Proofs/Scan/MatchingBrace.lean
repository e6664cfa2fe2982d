import EnumLabels.Proofs.Scan.FirstReturn

/-!
# The brace that matches the first open brace

The depth is counted from the line before the call site on, and a close brace in front of the first
open brace takes it below zero. What is found is then the line on which, counted from the first
open brace on, as many more braces have opened than closed as have closed in front of it. It is the
line of the matching close brace for whatever follows exactly if none has closed in front.
-/

namespace EnumLabels

namespace Braces

/-- The text in front of the first open brace, all of it if there is none. -/
def beforeOpen (b : Braces) (text : List Char) : List Char :=
  text.takeWhile fun c => b.opening ≠ some c

/-- The text from the first open brace on. -/
def fromOpen (b : Braces) (text : List Char) : List Char :=
  text.dropWhile fun c => b.opening ≠ some c

/-- The number of close braces in front of the first open brace. -/
def strays (b : Braces) (text : List Char) : Nat := b.closes (b.beforeOpen text)

/-- The first position of a text at which, counted from the first open brace on, a height is
reached. -/
def IsFirstFromOpen (b : Braces) (height : Nat) (text : List Char) (n : Nat) : Prop :=
  ∃ m, b.IsFirstReach height (b.fromOpen text) m ∧ n = (b.beforeOpen text).length + m

/-- The position of the close brace that matches the first open brace of a text. -/
def IsMatch (b : Braces) (text : List Char) (n : Nat) : Prop := b.IsFirstFromOpen 0 text n

variable {b : Braces} {height : Nat} {lead text : List Char}

/-- No brace opens in front of the first open brace. -/
theorem opens_beforeOpen (b : Braces) (text : List Char) : b.opens (b.beforeOpen text) = 0 := by
  rw [opens, List.countP_eq_zero]
  intro c hc
  simpa using List.mem_takeWhile_imp hc

/-- A text is what stands in front of its first open brace and what follows from there on. -/
theorem beforeOpen_append_fromOpen (b : Braces) (text : List Char) :
    b.beforeOpen text ++ b.fromOpen text = text := List.takeWhile_append_dropWhile

/-- Behind a text without open braces a height is reached by the braces that follow. -/
theorem reachesAt_append_iff (hlead : b.opens lead = 0) {n : Nat} :
    b.ReachesAt height (lead ++ text) (lead.length + n) ↔
      b.ReachesAt (b.closes lead + height) text n := by
  have htake : (lead ++ text).take (lead.length + n + 1) = lead ++ text.take (n + 1) := by
    rw [Nat.add_assoc, List.take_length_add_append]
  constructor
  · rintro ⟨hlength, hpos, heq⟩
    rw [htake, opens_append] at hpos heq
    rw [closes_append] at heq
    rw [List.length_append] at hlength
    exact ⟨by omega, by omega, by omega⟩
  · rintro ⟨hlength, hpos, heq⟩
    refine ⟨?_, ?_, ?_⟩
    · rw [List.length_append]
      omega
    · rw [htake, opens_append]
      omega
    · rw [htake, opens_append, closes_append]
      omega

/-- Within a text without open braces no height is reached. -/
theorem le_of_reachesAt_append (hlead : b.opens lead = 0) {n : Nat}
    (h : b.ReachesAt height (lead ++ text) n) : lead.length ≤ n := by
  by_contra hlt
  have hpos := h.opens_pos
  rw [List.take_append_of_le_length (by omega)] at hpos
  have hle : b.opens (lead.take (n + 1)) ≤ b.opens lead :=
    (List.take_sublist _ _).countP_le
  omega

/-- Behind a text without open braces a height is first reached by the braces that follow. -/
theorem isFirstReach_append_iff (hlead : b.opens lead = 0) {n : Nat} :
    b.IsFirstReach height (lead ++ text) n ↔
      ∃ m, b.IsFirstReach (b.closes lead + height) text m ∧ n = lead.length + m := by
  constructor
  · intro h
    obtain ⟨m, rfl⟩ := Nat.exists_eq_add_of_le (le_of_reachesAt_append hlead h.reaches)
    refine ⟨m, ⟨(reachesAt_append_iff hlead).mp h.reaches, fun k hk hreaches => ?_⟩, rfl⟩
    exact h.first _ (Nat.add_lt_add_left hk _) ((reachesAt_append_iff hlead).mpr hreaches)
  · rintro ⟨m, hm, rfl⟩
    refine ⟨(reachesAt_append_iff hlead).mpr hm.reaches, fun k hk hreaches => ?_⟩
    obtain ⟨l, rfl⟩ := Nat.exists_eq_add_of_le (le_of_reachesAt_append hlead hreaches)
    exact hm.first l (by omega) ((reachesAt_append_iff hlead).mp hreaches)

/-- A text returns to zero where, counted from its first open brace on, as many more braces have
opened than closed as have closed before. -/
theorem isFirstReach_zero_iff {n : Nat} :
    b.IsFirstReach 0 text n ↔ b.IsFirstFromOpen (b.strays text) text n := by
  rw [← b.beforeOpen_append_fromOpen text, isFirstReach_append_iff (b.opens_beforeOpen text),
    b.beforeOpen_append_fromOpen]
  rfl

/-- From the first open brace on, a height is first reached at one position only. -/
theorem IsFirstFromOpen.unique {n m : Nat} (hn : b.IsFirstFromOpen height text n)
    (hm : b.IsFirstFromOpen height text m) : n = m := by
  obtain ⟨k, hk, rfl⟩ := hn
  obtain ⟨l, hl, rfl⟩ := hm
  rw [hk.unique hl]

/-- The text from the first open brace on begins with that brace. -/
theorem exists_fromOpen_eq_cons (h : b.fromOpen text ≠ []) :
    ∃ c rest, b.fromOpen text = c :: rest ∧ b.opening = some c := by
  obtain ⟨c, rest, hcons⟩ := List.exists_cons_of_ne_nil h
  refine ⟨c, rest, hcons, ?_⟩
  have hhead := List.head?_dropWhile_not (fun c => decide (b.opening ≠ some c)) text
  rw [fromOpen] at hcons
  rw [hcons] at hhead
  simpa using hhead

/-- The text in front of the first open brace is all in front of an open brace that has none in
front of it. -/
theorem beforeOpen_append_cons (hlead : b.opens lead = 0) {c : Char} (hopen : b.opening = some c)
    (rest : List Char) : b.beforeOpen (lead ++ c :: rest) = lead := by
  have hall : ∀ d ∈ lead, decide (b.opening ≠ some d) = true := by
    simpa [opens, List.countP_eq_zero] using hlead
  rw [beforeOpen, List.takeWhile_append_of_pos hall]
  simp [hopen]

/-- The text from the first open brace on begins with an open brace that has none in front of it. -/
theorem fromOpen_append_cons (hlead : b.opens lead = 0) {c : Char} (hopen : b.opening = some c)
    (rest : List Char) : b.fromOpen (lead ++ c :: rest) = c :: rest := by
  have hsplit := b.beforeOpen_append_fromOpen (lead ++ c :: rest)
  rw [beforeOpen_append_cons hlead hopen] at hsplit
  exact List.append_cancel_left hsplit

/-- Up to where it first returns, a text that begins with an open brace keeps the brace open. -/
theorem IsFirstReach.closes_lt_opens (hdistinct : b.AreDistinct) {c : Char} {rest : List Char}
    (hopen : b.opening = some c) {n m : Nat} (h : b.IsFirstReach 0 (c :: rest) n) (hm : m < n) :
    b.closes ((c :: rest).take (m + 1)) < b.opens ((c :: rest).take (m + 1)) := by
  induction m with
  | zero => simp [opens, closes, hopen, hdistinct c hopen]
  | succ m ih =>
    have hopened := ih (by omega)
    have hlength : m + 1 < (c :: rest).length := Nat.lt_trans hm h.reaches.lt_length
    have htake := List.take_succ_eq_append_getElem hlength
    have hcloses : b.closes [(c :: rest)[m + 1]] ≤ 1 := List.countP_le_length
    have hnot : ¬ b.ReachesAt 0 (c :: rest) (m + 1) := h.first (m + 1) hm
    rw [htake, opens_append, closes_append]
    by_contra hle
    apply hnot
    refine ⟨hlength, ?_, ?_⟩
    · rw [htake, opens_append]
      omega
    · rw [htake, opens_append, closes_append]
      omega

/-- A character that counts as a close brace is the close brace. -/
theorem closing_eq_of_closes {c : Char} (h : 0 < b.closes [c]) : b.closing = some c := by
  by_contra hclose
  simp [closes, hclose] at h

/-- A text that begins with an open brace returns at a close brace. -/
theorem IsFirstReach.closing_eq (hdistinct : b.AreDistinct) {c : Char} {rest : List Char}
    (hopen : b.opening = some c) {n : Nat} (h : b.IsFirstReach 0 (c :: rest) n) :
    ∃ d, (c :: rest)[n]? = some d ∧ b.closing = some d := by
  have hreturn := h.reaches.opens_eq
  cases n with
  | zero => simp [opens, closes, hopen, hdistinct c hopen] at hreturn
  | succ m =>
    have hlength := h.reaches.lt_length
    have hopened := h.closes_lt_opens hdistinct hopen (Nat.lt_succ_self m)
    rw [List.take_succ_eq_append_getElem hlength, opens_append, closes_append] at hreturn
    have hcloses : 0 < b.closes [(c :: rest)[m + 1]] := by omega
    exact ⟨(c :: rest)[m + 1], List.getElem?_eq_getElem hlength, closing_eq_of_closes hcloses⟩

/-- The first open brace of a text is matched by a close brace. -/
theorem IsMatch.closing_eq (hdistinct : b.AreDistinct) {n : Nat} (h : b.IsMatch text n) :
    ∃ d, text[n]? = some d ∧ b.closing = some d := by
  obtain ⟨m, hm, rfl⟩ := h
  have hne : b.fromOpen text ≠ [] :=
    List.ne_nil_of_length_pos (Nat.zero_lt_of_lt hm.reaches.lt_length)
  obtain ⟨c, rest, hcons, hopen⟩ := exists_fromOpen_eq_cons hne
  rw [hcons] at hm
  obtain ⟨d, hd, hclose⟩ := hm.closing_eq hdistinct hopen
  have htext : b.beforeOpen text ++ c :: rest = text := by
    rw [← hcons, beforeOpen_append_fromOpen]
  refine ⟨d, ?_, hclose⟩
  calc
    text[(b.beforeOpen text).length + m]?
      = (b.beforeOpen text ++ c :: rest)[(b.beforeOpen text).length + m]? := by rw [htext]
    _ = some d := by
      rw [List.getElem?_append_right (Nat.le_add_right _ _), Nat.add_sub_cancel_left, hd]

/-- An open brace and a close brace reach height one at the first and return at the second. -/
theorem isFirstReach_pair_iff (hdistinct : b.AreDistinct) {c d : Char} (hopen : b.opening = some c)
    (hclose : b.closing = some d) {m : Nat} :
    b.IsFirstReach height [c, d] m ↔ m = 0 ∧ height = 1 ∨ m = 1 ∧ height = 0 := by
  have hne : c ≠ d := by
    rintro rfl
    exact hdistinct c hopen hclose
  have hone : b.opens [c] = 1 ∧ b.closes [c] = 0 := by
    simp [opens, closes, hopen, hclose, hne.symm]
  have htwo : b.opens [c, d] = 1 ∧ b.closes [c, d] = 1 := by
    simp [opens, closes, hopen, hclose, hne, hne.symm]
  have hreaches (k : Nat) :
      b.ReachesAt height [c, d] k ↔ k = 0 ∧ height = 1 ∨ k = 1 ∧ height = 0 := by
    constructor
    · rintro ⟨hlength, -, heq⟩
      obtain rfl | rfl : k = 0 ∨ k = 1 :=
        Nat.le_one_iff_eq_zero_or_eq_one.mp (Nat.le_of_lt_succ hlength)
      · change b.opens [c] = b.closes [c] + height at heq
        omega
      · change b.opens [c, d] = b.closes [c, d] + height at heq
        omega
    · rintro (⟨rfl, rfl⟩ | ⟨rfl, rfl⟩)
      · refine ⟨Nat.zero_lt_two, ?_, ?_⟩
        · exact hone.1.symm ▸ Nat.zero_lt_one
        · change b.opens [c] = b.closes [c] + 1
          rw [hone.1, hone.2]
      · refine ⟨Nat.one_lt_two, ?_, ?_⟩
        · exact htwo.1.symm ▸ Nat.zero_lt_one
        · exact htwo.1.trans htwo.2.symm
  constructor
  · intro h
    exact (hreaches m).mp h.reaches
  · intro h
    refine ⟨(hreaches m).mpr h, fun k hk hearlier => ?_⟩
    have hboth := (hreaches k).mp hearlier
    omega

end Braces

/-- The line that is found holds the close brace that matches the first open brace from the line
before the call site on, and the number of lines is found exactly if there is no such brace. -/
structure FindsMatch (b : Braces) (lines : List Line) (line : Int) : Prop where
  on_line : skipClosure b lines line < lines.length →
    ∃ n, b.IsMatch (lines.drop (line - 1).toNat).flatten n ∧
      skipClosure b lines line = (line - 1).toNat + lineAt (lines.drop (line - 1).toNat) n
  none_iff : skipClosure b lines line = lines.length ↔
    ∀ n, ¬ b.IsMatch (lines.drop (line - 1).toNat).flatten n

section Finding

variable {b : Braces} (hdistinct : b.AreDistinct) {lines : List Line} {line : Int} {n : Nat}
include hdistinct

/-- The matching brace is found exactly if it is on the line on which as many more braces have
opened than closed as have closed in front of the first open brace. -/
theorem findsMatch_iff :
    FindsMatch b lines line ↔
      ∀ k, (∃ n, b.IsFirstFromOpen (b.strays (lines.drop (line - 1).toNat).flatten)
          (lines.drop (line - 1).toNat).flatten n ∧ lineAt (lines.drop (line - 1).toNat) n = k) ↔
        ∃ n, b.IsMatch (lines.drop (line - 1).toNat).flatten n ∧
          lineAt (lines.drop (line - 1).toNat) n = k := by
  simp only [← Braces.isFirstReach_zero_iff]
  have hfound {n : Nat} := skipClosure_of_isFirstReach hdistinct lines line (n := n)
  have hlt {n : Nat} := skipClosure_lt_of_isFirstReach hdistinct lines line (n := n)
  constructor
  · intro h k
    constructor
    · rintro ⟨n, hn, rfl⟩
      obtain ⟨m, hm, hline⟩ := h.on_line (hlt hn)
      rw [hfound hn] at hline
      exact ⟨m, hm, Nat.add_left_cancel hline.symm⟩
    · rintro ⟨m, hm, rfl⟩
      obtain ⟨n, hn, hline, hless⟩ | ⟨-, hlength⟩ := skipClosure_cases hdistinct lines line
      · obtain ⟨m', hm', hline'⟩ := h.on_line hless
        obtain rfl := hm.unique hm'
        rw [hline] at hline'
        exact ⟨n, hn, Nat.add_left_cancel hline'⟩
      · exact absurd hm (h.none_iff.mp hlength m)
  · intro h
    constructor
    · intro hless
      obtain ⟨n, hn, hline, -⟩ | ⟨-, hlength⟩ := skipClosure_cases hdistinct lines line
      · obtain ⟨m, hm, hsame⟩ := (h _).mp ⟨n, hn, rfl⟩
        exact ⟨m, hm, by rw [hline, hsame]⟩
      · exact absurd hlength hless.ne
    · constructor
      · intro hlength m hm
        obtain ⟨n, hn, -⟩ := (h _).mpr ⟨m, hm, rfl⟩
        exact (hlt hn).ne hlength
      · intro hno
        obtain ⟨n, hn, -⟩ | ⟨-, hlength⟩ := skipClosure_cases hdistinct lines line
        · obtain ⟨m, hm, -⟩ := (h _).mp ⟨n, hn, rfl⟩
          exact absurd hm (hno m)
        · exact hlength

/-- The matching brace is found if no brace closes in front of the first open brace. -/
theorem findsMatch_of_strays_eq_zero (h : b.strays (lines.drop (line - 1).toNat).flatten = 0) :
    FindsMatch b lines line := by
  rw [findsMatch_iff hdistinct, h]
  exact fun k => Iff.rfl

/-- Whatever follows the first open brace, its matching brace is found exactly if no brace closes in
front of it. -/
theorem forall_findsMatch_iff {above before : List Line} {front : List Char} {c : Char}
    (hline : (line - 1).toNat = above.length) (hlead : b.opens (before.flatten ++ front) = 0)
    (hopen : b.opening = some c) :
    (∀ back after, FindsMatch b (above ++ (before ++ (front ++ c :: back) :: after)) line) ↔
      b.closes (before.flatten ++ front) = 0 := by
  have hstrays (rest : List Char) : b.strays ((before.flatten ++ front) ++ c :: rest) =
      b.closes (before.flatten ++ front) := by
    rw [Braces.strays, Braces.beforeOpen_append_cons hlead hopen]
  constructor
  · intro h
    by_contra hstray
    obtain ⟨d, -, hclose⟩ := List.countP_pos_iff.mp (Nat.pos_of_ne_zero hstray)
    rw [decide_eq_true_iff] at hclose
    -- With the close brace alone on the next line, the open brace is matched there.
    have hlines := (findsMatch_iff hdistinct).mp (h [] [[d]]) (before.length + 1)
    rw [hline, List.drop_left, flatten_split, hstrays] at hlines
    simp only [Braces.IsMatch, Braces.IsFirstFromOpen, Braces.beforeOpen_append_cons hlead hopen,
      Braces.fromOpen_append_cons hlead hopen, List.nil_append, List.flatten_cons, List.flatten_nil,
      List.append_nil, Braces.isFirstReach_pair_iff hdistinct hopen hclose] at hlines
    have hmatch : lineAt (before ++ [front ++ [c], [d]]) ((before.flatten ++ front).length + 1) =
        before.length + 1 := by
      have hsplit := lineAt_split (before ++ [front ++ [c]]) [] d [] []
      simpa [Nat.add_assoc] using hsplit
    obtain ⟨n, ⟨m, hm, rfl⟩, hn⟩ := hlines.mpr ⟨_, ⟨1, by simp, rfl⟩, hmatch⟩
    obtain ⟨rfl, -⟩ | ⟨-, hzero⟩ := hm
    · rw [Nat.add_zero, lineAt_split] at hn
      omega
    · exact hstray hzero
  · intro hnone back after
    apply findsMatch_of_strays_eq_zero hdistinct
    rw [hline, List.drop_left, flatten_split, hstrays, hnone]

end Finding

/-- What is found is the line on which, counted from the first open brace on, as many more braces
have opened than closed as have closed in front of it. It is that of the matching brace exactly if
both are on one line or neither exists, so whenever no brace closes in front of the first open
brace. If one does, then with some text behind the open brace the line is another. -/
theorem skipClosure_finds_match_iff {s : Settings} (hcheck : s.check = .ok s) (line : Int) :
    (∀ lines : List Line,
      let ahead := lines.drop (line - 1).toNat
      let strays := s.braces.strays ahead.flatten
      (∀ n, s.braces.IsFirstFromOpen strays ahead.flatten n →
        skipClosure s.braces lines line = (line - 1).toNat + lineAt ahead n) ∧
      ((∀ n, ¬ s.braces.IsFirstFromOpen strays ahead.flatten n) →
        skipClosure s.braces lines line = lines.length) ∧
      (FindsMatch s.braces lines line ↔
        ∀ k, (∃ n, s.braces.IsFirstFromOpen strays ahead.flatten n ∧ lineAt ahead n = k) ↔
          ∃ n, s.braces.IsMatch ahead.flatten n ∧ lineAt ahead n = k) ∧
      (strays = 0 → FindsMatch s.braces lines line) ∧
      ∀ n, s.braces.IsMatch ahead.flatten n →
        ∃ d, ahead.flatten[n]? = some d ∧ s.braces.closing = some d) ∧
    ∀ (above before : List Line) (front : List Char) (c : Char),
      (line - 1).toNat = above.length → s.braces.opens (before.flatten ++ front) = 0 →
      s.braces.opening = some c →
      ((∀ back after,
          FindsMatch s.braces (above ++ (before ++ (front ++ c :: back) :: after)) line) ↔
        s.braces.closes (before.flatten ++ front) = 0) := by
  have hdistinct := Settings.areDistinct_braces hcheck
  constructor
  · intro lines ahead strays
    refine ⟨fun n hn => ?_, fun hnone => ?_, ?_, ?_, fun n hn => ?_⟩
    · exact skipClosure_of_isFirstReach hdistinct lines line (Braces.isFirstReach_zero_iff.mpr hn)
    · obtain ⟨n, hn, -⟩ | ⟨-, hlength⟩ := skipClosure_cases hdistinct lines line
      · exact absurd (Braces.isFirstReach_zero_iff.mp hn) (hnone n)
      · exact hlength
    · exact findsMatch_iff hdistinct
    · exact findsMatch_of_strays_eq_zero hdistinct
    · exact hn.closing_eq hdistinct
  · intro above before front c hline hlead hopen
    exact forall_findsMatch_iff hdistinct hline hlead hopen

/-- A closure with another one inside it, whose first open brace has no close brace in front of it
from the line before the call site on, is found by its matching brace. -/
theorem skipClosure_finds_match_nested :
    ({} : Settings).check = .ok {} ∧
      FindsMatch ({} : Settings).braces
        ["\x7d".toList, "Gen \x7b f \x7b 1 \x7d".toList, "\x7d".toList] 2 ∧
      ¬ ∀ back after, FindsMatch ({} : Settings).braces
        ([] ++ ([] ++ ("\x7d else ".toList ++ '\x7b' :: back) :: after)) 1 := by
  have hcheck : ({} : Settings).check = .ok {} := rfl
  refine ⟨hcheck, ?_, ?_⟩
  · have hlines := (skipClosure_finds_match_iff hcheck 2).1
      ["\x7d".toList, "Gen \x7b f \x7b 1 \x7d".toList, "\x7d".toList]
    exact hlines.2.2.2.1 (by decide)
  · have hfollows := (skipClosure_finds_match_iff hcheck 1).2
      [] [] "\x7d else ".toList '\x7b' (by decide) (by decide) (by decide)
    exact mt hfollows.mp (by decide)

/-- Behind a close brace, the line of the first open brace is found and not that of the brace that
matches it. -/
theorem skipClosure_stops_at_open_brace :
    let lines := ["\x7d else \x7b".toList, "  case .a: 0".toList, "\x7d".toList, "case zero".toList]
    ({} : Settings).check = .ok {} ∧ skipClosure ({} : Settings).braces lines 1 = 0 ∧
      ({} : Settings).braces.IsMatch lines.flatten 20 ∧ lineAt lines 20 = 2 ∧
      ¬ FindsMatch ({} : Settings).braces lines 1 := by
  intro lines
  have hmatch : ({} : Settings).braces.IsMatch lines.flatten 20 := ⟨13, by decide, by decide⟩
  have hline : lineAt lines 20 = 2 := by decide
  have hfound : skipClosure ({} : Settings).braces lines 1 = 0 := by decide
  refine ⟨rfl, hfound, hmatch, hline, fun h => ?_⟩
  obtain ⟨n, hn, hfirst⟩ := h.on_line (by rw [hfound]; decide)
  obtain rfl : n = 20 := hn.unique hmatch
  change skipClosure _ lines 1 = 0 + lineAt lines 20 at hfirst
  rw [hfound, hline] at hfirst
  contradiction

end EnumLabels
