import EnumLabels.Proofs.Scan.FirstBlock
import EnumLabels.Proofs.Scan.Nesting

/-!
# The inside of a closure does not matter

Lines that are in balance may be inserted wherever a closure is open. The nesting after them is
the nesting before them, so the two readings find the same closing line, and from there on they
see the same lines. Only the number of that line, and with it the number in an error, is larger
by the number of inserted lines.
-/

namespace EnumLabels

variable {o : Options} {above opened inserted : List Line} {line : Int} (below : List Line)

/-- Lines that leave a closure open are read to their end. -/
theorem readLine?_of_runsOn (hruns : o.RunsOn opened.flatten)
    (hdepth : 1 ≤ o.balance opened.flatten) :
    Nesting.start.readLine? o.braces opened.flatten = some ⟨o.balance opened.flatten, true⟩ := by
  have hmem : o.openBrace ∈ opened.flatten := by
    rw [← List.count_pos_iff]
    simp only [Options.balance] at hdepth
    omega
  rw [Nesting.readLine?_start_iff, List.contains_iff_mem.mpr hmem]
  exact ⟨rfl, hruns⟩

/-- In an open closure, lines in balance leave the nesting as it is. -/
theorem readLine?_of_isBalanced {depth : Int} (hdepth : 1 ≤ depth)
    (hinserted : o.IsBalanced inserted.flatten) :
    Nesting.readLine? o.braces ⟨depth, true⟩ inserted.flatten = some ⟨depth, true⟩ := by
  rw [Nesting.readLine?_of_opened o rfl, hinserted.total, Int.add_zero]
  intro part hpart
  have hnonneg := hinserted.nonneg part hpart
  simp only
  omega

/-- The closing line comes as much later as there are inserted lines. -/
theorem skipClosure_insert (habove : (line - 1).toNat = above.length)
    (hruns : o.RunsOn opened.flatten) (hdepth : 1 ≤ o.balance opened.flatten)
    (hinserted : o.IsBalanced inserted.flatten) :
    skipClosure o.braces (above ++ (opened ++ (inserted ++ below))) line =
      skipClosure o.braces (above ++ (opened ++ below)) line + inserted.length := by
  have hopened := readLine?_of_runsOn hruns hdepth
  have hbody := readLine?_of_isBalanced hdepth hinserted
  rw [skipClosure, skipClosure, habove, List.drop_left, List.drop_left,
    closingLine?_append o.braces hopened, closingLine?_append o.braces hopened,
    closingLine?_append o.braces hbody, closingLine?_add o.braces _ _ inserted.length]
  cases closingLine? o.braces ⟨o.balance opened.flatten, true⟩ (above.length + opened.length)
    below with
  | none =>
    simp only [Option.map_none, Option.getD_none, List.length_append]
    omega
  | some k => rfl

/-- The closing line lies below the lines that leave the closure open. -/
theorem le_skipClosure (habove : (line - 1).toNat = above.length)
    (hruns : o.RunsOn opened.flatten) (hdepth : 1 ≤ o.balance opened.flatten) :
    above.length + opened.length ≤ skipClosure o.braces (above ++ (opened ++ below)) line := by
  have hopened := readLine?_of_runsOn hruns hdepth
  rw [skipClosure, habove, List.drop_left, closingLine?_append o.braces hopened]
  cases hclosing : closingLine? o.braces ⟨o.balance opened.flatten, true⟩
      (above.length + opened.length) below with
  | none => simp
  | some k => exact (closingLine?_bounds o.braces hclosing).1

/-- Below the inserted lines the two sources are the same. -/
theorem drop_insert {cursor : Nat} (hcursor : above.length + opened.length ≤ cursor) :
    (above ++ (opened ++ (inserted ++ below))).drop (cursor + inserted.length) =
      (above ++ (opened ++ below)).drop cursor := by
  obtain ⟨more, rfl⟩ := Nat.exists_eq_add_of_le hcursor
  have hlong : above.length + opened.length + more + inserted.length =
      (above ++ opened ++ inserted).length + more := by
    simp only [List.length_append]
    omega
  have hshort : above.length + opened.length + more = (above ++ opened).length + more := by
    rw [List.length_append]
  rw [hlong, hshort, ← List.drop_drop, ← List.drop_drop, ← List.append_assoc, ← List.append_assoc,
    List.drop_left, ← List.append_assoc, List.drop_left]

/-- Lines in balance that are inserted into a closure change nothing but the numbers of the lines
below them. -/
theorem scan_insert_balanced (o : Options) (lines inserted : List Line) (line : Int)
    (hline : 0 ≤ line) (p : Nat) (hstart : (line - 1).toNat ≤ p) (hp : p < lines.length)
    (hruns : o.RunsOn ((lines.drop (line - 1).toNat).take (p + 1 - (line - 1).toNat)).flatten)
    (hdepth :
      1 ≤ o.balance ((lines.drop (line - 1).toNat).take (p + 1 - (line - 1).toNat)).flatten)
    (hinserted : o.IsBalanced inserted.flatten) :
    skipClosure o.braces (lines.take (p + 1) ++ inserted ++ lines.drop (p + 1)) line =
        skipClosure o.braces lines line + inserted.length ∧
      Renumbered (· + inserted.length) (scan o lines line (some true))
        (scan o (lines.take (p + 1) ++ inserted ++ lines.drop (p + 1)) line (some true)) := by
  generalize hopened : (lines.drop (line - 1).toNat).take (p + 1 - (line - 1).toNat) = opened at *
  generalize habove : lines.take (line - 1).toNat = above
  have htake : lines.take (p + 1) = above ++ opened := by
    rw [← habove, ← hopened, ← List.take_add]
    congr 1
    omega
  have hlength : (line - 1).toNat = above.length := by
    rw [← habove, List.length_take]
    omega
  have hlines : lines = above ++ (opened ++ lines.drop (p + 1)) := by
    rw [← List.append_assoc, ← htake, List.take_append_drop]
  rw [htake, List.append_assoc, List.append_assoc]
  generalize lines.drop (p + 1) = below at hlines
  subst hlines
  have hskip := skipClosure_insert below hlength hruns hdepth hinserted
  have hbelow := le_skipClosure below hlength hruns hdepth
  refine ⟨hskip, ?_⟩
  rw [o.scan_eq_read _ hline, o.scan_eq_read _ hline, o.scanStart_skipping _ _ rfl,
    o.scanStart_skipping _ _ rfl, hskip, drop_insert below hbelow, Int.natCast_add]
  exact Markers.read_renumbered _ _ _ _

/-- A closure with a case line in it is inserted into another one. -/
theorem scan_insert_closure :
    Options.default.RunsOn "Gen \x7b".toList ∧ 1 ≤ Options.default.balance "Gen \x7b".toList ∧
      Options.default.IsBalanced "\x7bcase b\x7d".toList ∧
      skipClosure Options.default.braces
          (["Gen \x7b", "\x7b", "case b", "\x7d", "\x7d", "case", "case a"].map String.toList) 1 =
        skipClosure Options.default.braces
          (["Gen \x7b", "\x7d", "case", "case a"].map String.toList) 1 + 3 ∧
      Renumbered (· + 3)
        (scan Options.default (["Gen \x7b", "\x7d", "case", "case a"].map String.toList) 1 (some true))
        (scan Options.default
          (["Gen \x7b", "\x7b", "case b", "\x7d", "\x7d", "case", "case a"].map String.toList) 1
          (some true)) :=
  ⟨by decide, by decide, by decide, scan_insert_balanced Options.default
    (["Gen \x7b", "\x7d", "case", "case a"].map String.toList)
    (["\x7b", "case b", "\x7d"].map String.toList) 1 (by decide) 0 (by decide) (by decide)
    (by decide) (by decide) (by decide)⟩

end EnumLabels
