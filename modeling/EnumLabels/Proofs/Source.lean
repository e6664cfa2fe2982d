import EnumLabels.Source

/-!
# Scans and reports of files

What a scan or a report of a source file comes to is a matter of whether its lines can be loaded.
If they can, it is a scan of the lines or a report on them, and if they cannot, it fails for the
cause of that. A scan asks first whether its position is negative.
-/

namespace EnumLabels

variable {d : Directory} {path : String}

/-- A position without a negative number passes the check. -/
theorem Position.check_of_nonneg {p : Position} (hline : 0 ≤ p.line) (hcolumn : 0 ≤ p.column) :
    p.check = .ok p := by
  have hnotLine : ¬ p.line < 0 := by omega
  have hnotColumn : ¬ p.column < 0 := by omega
  rw [check, if_neg hnotLine, if_neg hnotColumn]

/-- At a negative line a scan of a file fails before it reads the file. -/
theorem scanFile_of_negative {line : Int} (hline : line < 0) (d : Directory) (s : Settings)
    (path : String) (column : Int) (skip : Option Bool) (missingOk : Bool) :
    scanFile d s ⟨path, line, column⟩ skip missingOk = .error (.negativeLine line) := by
  simp [scanFile, Position.check, hline, bind, Except.bind]

/-- At a negative column a scan of a file fails before it reads the file. -/
theorem scanFile_of_negative_column {line column : Int} (hline : 0 ≤ line) (hcolumn : column < 0)
    (d : Directory) (s : Settings) (path : String) (skip : Option Bool) (missingOk : Bool) :
    scanFile d s ⟨path, line, column⟩ skip missingOk = .error (.negativeColumn column) := by
  have hnotLine : ¬ line < 0 := by omega
  simp [scanFile, Position.check, hnotLine, hcolumn, bind, Except.bind]

section Nonnegative

variable {line column : Int} (hline : 0 ≤ line) (hcolumn : 0 ≤ column)

include hline hcolumn

/-- A scan of a file that must not be missing fails if it cannot be loaded, for the same cause. -/
theorem scanFile_of_error {e : Error} (hload : loadLines d path = .error e) (s : Settings)
    (skip : Option Bool) : scanFile d s ⟨path, line, column⟩ skip false = .error e := by
  rw [scanFile, Position.check_of_nonneg hline hcolumn]
  simp only [bind, Except.bind, hload]
  cases e <;> rfl

/-- A scan of a file that can be loaded is one of its lines and warns of nothing. -/
theorem scanFile_of_ok {lines : List Line} (hload : loadLines d path = .ok lines) (s : Settings)
    (skip : Option Bool) (missingOk : Bool) :
    scanFile d s ⟨path, line, column⟩ skip missingOk =
      (scan s lines line skip).map fun labels => ⟨labels, []⟩ := by
  rw [scanFile, Position.check_of_nonneg hline hcolumn]
  simp only [bind, Except.bind, hload]
  cases scan s lines line skip <;> rfl

end Nonnegative

/-- A report on a file that cannot be loaded fails for the same cause. -/
theorem inspectFile_of_error {e : Error} (hload : loadLines d path = .error e) (s : Settings)
    (line : Int) (skip : Option Bool) (expectedCount : Option Int) :
    inspectFile d s path line skip expectedCount = .error e := by
  rw [inspectFile, hload]
  rfl

/-- A report on a file that can be loaded is one on its lines. -/
theorem inspectFile_of_ok {lines : List Line} (hload : loadLines d path = .ok lines)
    (s : Settings) (line : Int) (skip : Option Bool) (expectedCount : Option Int) :
    inspectFile d s path line skip expectedCount =
      Report.inspect s lines line skip expectedCount (some path) := by
  rw [inspectFile, hload]
  rfl

end EnumLabels
