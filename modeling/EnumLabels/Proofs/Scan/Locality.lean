import EnumLabels.Proofs.Scan.FirstBlock
import EnumLabels.Proofs.Scan.Nesting

/-!
# What a scan does not look at

A scan looks at no line above the one with which it begins, and at none below the line that ends
its block. So any lines may stand above, as long as the call site moves with them, and any lines
may stand below. The lines above count only in the number that an error names.

A scan that steps over a closure begins one line above the call site, and a scan that steps over
nothing begins with the line of the call site, counted from zero.
-/

namespace EnumLabels

namespace Options

/-- The number of lines above the one with which a scan begins. -/
def linesAbove (o : Options) (line : Int) (skip : Option Bool) : Nat :=
  if skip.getD o.skipsClosures then (line - 1).toNat else line.toNat

/-- The call site from which a scan begins after a number of lines. -/
def callSiteBelow (o : Options) (count : Nat) (skip : Option Bool) : Int :=
  if skip.getD o.skipsClosures then count + 1 else count

variable (o : Options)

/-- A call site below some lines is not negative. -/
theorem callSiteBelow_nonneg (count : Nat) (skip : Option Bool) :
    0 ≤ o.callSiteBelow count skip := by
  rw [callSiteBelow]
  split <;> omega

/-- A scan from the call site below some lines has those lines above it. -/
@[simp] theorem linesAbove_callSiteBelow (count : Nat) (skip : Option Bool) :
    o.linesAbove (o.callSiteBelow count skip) skip = count := by
  rw [linesAbove, callSiteBelow]
  split <;> omega

end Options

/-- Lines above the place where reading starts are counted and not looked at. -/
theorem skipClosure_append (braces : Braces) {above : List Line} {line : Int}
    (habove : (line - 1).toNat = above.length) (ahead : List Line) :
    skipClosure braces (above ++ ahead) line = above.length + skipClosure braces ahead 1 := by
  have hshift := closingLine?_add braces .start 0 above.length ahead
  rw [Nat.zero_add] at hshift
  rw [skipClosure, skipClosure, habove, List.drop_left, hshift]
  change _ = above.length + (closingLine? braces .start 0 ahead).getD ahead.length
  cases closingLine? braces .start 0 ahead with
  | none => simp
  | some k =>
    simp only [Option.map_some, Option.getD_some]
    omega

/-- A scan of lines that stand below others begins as much later. -/
theorem Options.scanStart_append (o : Options) {above : List Line} {line : Int}
    {skip : Option Bool} (habove : o.linesAbove line skip = above.length) (ahead : List Line) :
    scanStart o (above ++ ahead) line skip =
      above.length + scanStart o ahead (o.callSiteBelow 0 skip) skip := by
  cases hskip : skip.getD o.skipsClosures with
  | false =>
    simp only [linesAbove, callSiteBelow, hskip] at habove ⊢
    rw [o.scanStart_notSkipping _ _ hskip, o.scanStart_notSkipping _ _ hskip]
    simpa using habove
  | true =>
    simp only [linesAbove, callSiteBelow, hskip] at habove ⊢
    rw [o.scanStart_skipping _ _ hskip, o.scanStart_skipping _ _ hskip,
      skipClosure_append o.braces habove ahead]
    rfl

/-- A scan reads the lines below the call site as if nothing stood above them, but for the number
from which it counts. -/
theorem Options.scan_append (o : Options) {above : List Line} {line : Int} (hline : 0 ≤ line)
    {skip : Option Bool} (habove : o.linesAbove line skip = above.length) (ahead : List Line) :
    scan o (above ++ ahead) line skip =
      o.toMarkers.read (above.length + scanStart o ahead (o.callSiteBelow 0 skip) skip)
        (ahead.drop (scanStart o ahead (o.callSiteBelow 0 skip) skip)) := by
  rw [o.scan_eq_read _ hline, o.scanStart_append habove, ← List.drop_drop, List.drop_left,
    Int.natCast_add]

/-- Where the closing line is one of the first lines, the lines below them make no difference. -/
theorem closingLine?_append_of_lt (braces : Braces) {n : Nesting} {index k : Nat}
    {first below : List Line} (h : closingLine? braces n index (first ++ below) = some k)
    (hk : k < index + first.length) (other : List Line) :
    closingLine? braces n index (first ++ other) = some k := by
  induction first generalizing n index with
  | nil =>
    have hbounds := closingLine?_bounds braces h
    simp only [List.length_nil] at hk
    omega
  | cons line first ih =>
    simp only [List.cons_append, closingLine?] at h ⊢
    split at h
    · exact h
    · refine ih h ?_
      rw [List.length_cons] at hk
      omega

/-- A closure that closes within the first lines is skipped whatever stands below them. -/
theorem skipClosure_append_of_lt (braces : Braces) {first below : List Line} {line : Int}
    (h : skipClosure braces (first ++ below) line < first.length) (other : List Line) :
    skipClosure braces (first ++ other) line = skipClosure braces (first ++ below) line := by
  cases hclosing : closingLine? braces .start (line - 1).toNat
      ((first ++ below).drop (line - 1).toNat) with
  | none =>
    simp only [skipClosure, hclosing, Option.getD_none, List.length_append] at h
    omega
  | some k =>
    have hskip : skipClosure braces (first ++ below) line = k := by
      rw [skipClosure, hclosing, Option.getD_some]
    have hbounds := closingLine?_bounds braces hclosing
    have hstart : (line - 1).toNat ≤ first.length := by omega
    rw [List.drop_append_of_le_length hstart] at hclosing
    have hk : k < (line - 1).toNat + (first.drop (line - 1).toNat).length := by
      rw [List.length_drop]
      omega
    rw [hskip, skipClosure, List.drop_append_of_le_length hstart,
      closingLine?_append_of_lt braces hclosing hk other, Option.getD_some]

/-- A scan that begins within the first lines begins there whatever stands below them. -/
theorem Options.scanStart_append_of_lt (o : Options) {first below : List Line} {line : Int}
    {skip : Option Bool} (h : scanStart o (first ++ below) line skip < first.length)
    (other : List Line) :
    scanStart o (first ++ other) line skip = scanStart o (first ++ below) line skip := by
  cases hskip : skip.getD o.skipsClosures with
  | false => rw [o.scanStart_notSkipping _ _ hskip, o.scanStart_notSkipping _ _ hskip]
  | true =>
    rw [o.scanStart_skipping _ _ hskip] at h
    rw [o.scanStart_skipping _ _ hskip, o.scanStart_skipping _ _ hskip,
      skipClosure_append_of_lt o.braces h]

/-- Where lines do not all satisfy a condition, a first one does not. -/
theorem exists_eq_takeWhile_append {p : Line → Bool} {lines : List Line}
    (h : (lines.takeWhile p).length < lines.length) :
    ∃ stop more, lines = lines.takeWhile p ++ stop :: more ∧ p stop = false := by
  have hlength := congrArg List.length (List.takeWhile_append_dropWhile (p := p) (l := lines))
  have hrest : lines.dropWhile p ≠ [] := by
    intro hnil
    rw [hnil, List.append_nil] at hlength
    omega
  obtain ⟨stop, more, hmore⟩ := List.exists_cons_of_ne_nil hrest
  refine ⟨stop, more, by rw [← hmore, List.takeWhile_append_dropWhile], ?_⟩
  have hhead := List.head?_dropWhile_not p lines
  rw [hmore] at hhead
  simpa using hhead

/-- Reading stops at the line that ends the first block. -/
theorem Markers.read_of_ended {m : Markers} {gap body : List Line} {first stop : Line}
    (hgap : ∀ line ∈ gap, line.isCase m = false) (hfirst : first.isCase m = true)
    (hbody : ∀ line ∈ body, m.continues line = true) (hstop : m.continues stop = false)
    (number : Int) (below : List Line) :
    m.read number (gap ++ first :: (body ++ stop :: below)) =
      labelsOf m (numberedFrom (number + gap.length) (first :: body)) := by
  rw [read_append hgap, read_cons_of_isCase hfirst, List.takeWhile_append_of_pos hbody,
    List.takeWhile_cons_of_neg (by simp [hstop]), List.append_nil]

/-- Around a block that is found and does not end with the last line stand the lines above the
search, the gap before the block, the line that ends it and any lines below. -/
theorem exists_ended_of_locate? {m : Markers} {lines : List Line} {cursor : Nat} {b : Block}
    (hlocate : locate? m lines cursor = some b) (hended : b.last + 1 < lines.length) :
    ∃ above gap first body stop below,
      lines = above ++ (gap ++ first :: (body ++ stop :: below)) ∧ cursor = above.length ∧
      (∀ line ∈ gap, line.isCase m = false) ∧ first.isCase m = true ∧
      (∀ line ∈ body, m.continues line = true) ∧ m.continues stop = false ∧
      b.last = (above.length + gap.length + body.length : Nat) := by
  rcases m.exists_firstCase (lines.drop cursor) with hnone | ⟨gap, first, rest, hahead, hgap, hfirst⟩
  · rw [locate?_eq_none hnone] at hlocate
    contradiction
  · rw [locate?_eq_some hahead hgap hfirst] at hlocate
    obtain rfl := Option.some.inj hlocate
    have hcount := congrArg List.length hahead
    simp only [List.length_drop, List.length_append, List.length_cons] at hcount
    simp only at hended
    have hlength : cursor = (lines.take cursor).length := by
      rw [List.length_take]
      omega
    obtain ⟨stop, below, hrest, hstop⟩ :
        ∃ stop below, rest = rest.takeWhile m.continues ++ stop :: below ∧
          m.continues stop = false := exists_eq_takeWhile_append (by omega)
    refine ⟨lines.take cursor, gap, first, rest.takeWhile m.continues, stop, below, ?_, hlength,
      hgap, hfirst, fun line hmem => List.mem_takeWhile_imp hmem, hstop, ?_⟩
    · rw [← hrest, ← hahead, List.take_append_drop]
    · rw [← hlength]

/-- If a line ends the block that is found, the lines below it make no difference to the scan. -/
theorem Options.scan_below_block (o : Options) {lines : List Line} {line : Int} (hline : 0 ≤ line)
    {skip : Option Bool} {b : Block}
    (hlocate : locate? o.toMarkers lines (scanStart o lines line skip) = some b)
    (hended : b.last + 1 < lines.length) (other : List Line) :
    scan o (lines.take (b.last + 2).toNat ++ other) line skip = scan o lines line skip := by
  obtain ⟨above, gap, first, body, stop, below, hlines, hcursor, hgap, hfirst, hbody, hstop, hlast⟩ :=
    exists_ended_of_locate? hlocate hended
  -- The lines that are kept reach from the first one to the one that ends the block.
  generalize hkept : above ++ (gap ++ first :: (body ++ [stop])) = kept
  have hlength : kept.length = above.length + gap.length + body.length + 2 := by
    rw [← hkept]
    simp only [List.length_append, List.length_cons, List.length_nil]
    omega
  have hsplit (more : List Line) :
      kept ++ more = above ++ (gap ++ first :: (body ++ stop :: more)) := by
    rw [← hkept]
    simp
  rw [← hsplit] at hlines
  subst hlines
  have htake : (kept ++ below).take (b.last + 2).toNat = kept :=
    List.take_left' (by omega)
  have hstart : scanStart o (kept ++ other) line skip = above.length := by
    rw [← hcursor]
    exact o.scanStart_append_of_lt (by omega) other
  rw [htake, o.scan_eq_read _ hline, o.scan_eq_read _ hline, hstart, hcursor, hsplit, hsplit,
    List.drop_left, List.drop_left, Markers.read_of_ended hgap hfirst hbody hstop,
    Markers.read_of_ended hgap hfirst hbody hstop]

/-- A scan depends on no line above the one with which it begins, but for the number in an error,
and on no line below the one that ends its block. -/
theorem scan_local (o : Options) (lines : List Line) (line : Int) (hline : 0 ≤ line)
    (skip : Option Bool) (habove : o.linesAbove line skip ≤ lines.length) :
    (∀ above : List Line,
      Renumbered (· + ((above.length : Int) - o.linesAbove line skip)) (scan o lines line skip)
        (scan o (above ++ lines.drop (o.linesAbove line skip))
          (o.callSiteBelow above.length skip) skip)) ∧
    ∀ b, locate? o.toMarkers lines (scanStart o lines line skip) = some b →
      b.last + 1 < lines.length → ∀ below,
        scan o (lines.take (b.last + 2).toNat ++ below) line skip = scan o lines line skip := by
  refine ⟨fun above => ?_, fun b hlocate hended below =>
    o.scan_below_block hline hlocate hended below⟩
  have hlength : o.linesAbove line skip = (lines.take (o.linesAbove line skip)).length := by
    rw [List.length_take]
    omega
  have hold := o.scan_append hline hlength (lines.drop (o.linesAbove line skip))
  rw [List.take_append_drop, ← hlength] at hold
  rw [hold, o.scan_append (o.callSiteBelow_nonneg above.length skip) (by simp)]
  generalize scanStart o (lines.drop (o.linesAbove line skip)) _ skip = start
  have hshift : (above.length : Int) + start =
      (o.linesAbove line skip : Int) + start + (above.length - o.linesAbove line skip) := by
    omega
  rw [hshift]
  exact Markers.read_renumbered _ _ _ _

/-- Behind a closure a scan finds the same case without the line above the call site, and with
another case below the line that ends the block. -/
theorem scan_local_behind_closure :
    let lines := ["import X", "Gen \x7b", "case x", "\x7d", "case", "\x7d", "end"].map String.toList
    locate? Options.default.toMarkers lines (scanStart Options.default lines 2 none) =
        some ⟨4, 4⟩ ∧
      Renumbered (· + (-1)) (scan Options.default lines 2 none)
        (scan Options.default (lines.drop 1) 1 none) ∧
      scan Options.default (lines.take 6 ++ ["case b".toList]) 2 none =
        scan Options.default lines 2 none := by
  intro lines
  have hlocate : locate? Options.default.toMarkers lines (scanStart Options.default lines 2 none) =
      some ⟨4, 4⟩ := by decide
  have hlocal := scan_local Options.default lines 2 (by decide) none (by decide)
  exact ⟨hlocate, hlocal.1 [], hlocal.2 ⟨4, 4⟩ hlocate (by decide) ["case b".toList]⟩

end EnumLabels
