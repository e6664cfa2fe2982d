import EnumLabels.Proofs.Settings.Use
import EnumLabels.Proofs.Source
import EnumLabels.Proofs.Stages

/-!
# Reports agree with scans

A report goes through the stages of a scan by itself and looks at the lines of the block once
more. Warnings leave its labels alone, and wherever it has labels it has the markers that the
second look needs. So it holds the labels of a scan and fails for the same cause.

On a file, a scan checks the line before it reads the file and a report does so afterwards. The
two can name different causes only for a negative line.
-/

namespace EnumLabels

namespace Report

variable (r : Report)

/-- What a report holds besides its warnings. -/
def findings (r : Report) : Report := { r with warnings := [] }

/-- A warning on a condition leaves the findings alone. -/
@[simp] theorem findings_warnIf (condition : Bool) (warning : String) :
    (r.warnIf condition warning).findings = r.findings := by
  rw [warnIf, warn]
  split
  · split <;> rfl
  · rfl

/-- Warnings of the labels leave the findings alone. -/
@[simp] theorem findings_warnOfLabels : r.warnOfLabels.findings = r.findings := by
  simp [warnOfLabels]

/-- Warnings of the block and of the labels leave the findings alone. -/
theorem findings_warned (s : Settings) :
    (r.warnOfBlock s).warnOfLabels.findings = r.findings := by
  simp [warnOfBlock]

/-- Warnings leave the block alone. -/
@[simp] theorem block_warned (s : Settings) : (r.warnOfBlock s).warnOfLabels.block = r.block :=
  congrArg (·.block) (r.findings_warned s)

/-- Warnings leave the labels alone. -/
@[simp] theorem labels_warned (s : Settings) : (r.warnOfBlock s).warnOfLabels.labels = r.labels :=
  congrArg (·.labels) (r.findings_warned s)

/-- Warnings leave the expected count alone. -/
@[simp] theorem expectedCount_warned (s : Settings) :
    (r.warnOfBlock s).warnOfLabels.expectedCount = r.expectedCount :=
  congrArg (·.expectedCount) (r.findings_warned s)

/-- What a report holds before a block is searched, if a scan says where the search begins. -/
def begun (s : Settings) (lines : List Line) (line : Int) (skip : Option Bool)
    (expectedCount : Option Int) (path : Option String) : Report where
  path := path
  line := line
  totalLines := lines.length
  cursor := scanStart s lines line skip
  skippedClosure := skipsClosure s skip
  expectedCount := expectedCount

/-- A report steps over a closure by itself, and comes to where a scan does. -/
theorem beforeSearch_eq_begun {line : Int} (hline : 0 ≤ line) (s : Settings) (lines : List Line)
    (skip : Option Bool) (expectedCount : Option Int) (path : Option String) :
    beforeSearch s lines line skip expectedCount path =
      begun s lines line skip expectedCount path := by
  rw [beforeSearch, begun, scanStart, skipsClosure]
  cases skip.getD s.skipClosures.isTrue with
  | true => rfl
  | false => simp [Int.toNat_of_nonneg hline]

/-- A report searches for a block where a scan does. -/
theorem inspect_of_nonneg {line : Int} (hline : 0 ≤ line) (s : Settings) (lines : List Line)
    (skip : Option Bool) (expectedCount : Option Int) (path : Option String) :
    inspect s lines line skip expectedCount path =
      match s.locate lines (scanStart s lines line skip) with
      | .error e => .error e
      | .ok none => .ok ((begun s lines line skip expectedCount path).warnOfBlock s).warnOfLabels
      | .ok (some b) => do
        let labels ← s.labels lines b
        let markers ← s.markers
        let found := { begun s lines line skip expectedCount path with block := some b }.withBlock
          markers (b.numbered lines) labels
        return (found.warnOfBlock s).warnOfLabels := by
  rw [inspect, if_neg (Int.not_lt.mpr hline), beforeSearch_eq_begun hline]
  rfl

/-- There is no report on a call site at a negative line. -/
theorem inspect_of_negative {line : Int} (hline : line < 0) (s : Settings) (lines : List Line)
    (skip : Option Bool) (expectedCount : Option Int) (path : Option String) :
    inspect s lines line skip expectedCount path = .error (.negativeLine line) :=
  if_pos hline

/-- The labels of a report are those that it is given with the block. -/
@[simp] theorem labels_withBlock (m : Markers) (numbered : List (Int × Line))
    (labels : List String) : (r.withBlock m numbered labels).labels = labels := rfl

end Report

variable {s : Settings}

/-- A report on lines holds the labels of a scan, or fails as the scan does. -/
theorem Report.map_labels_inspect (hcheck : s.check = .ok s) (lines : List Line) (line : Int)
    (skip : Option Bool) (expectedCount : Option Int) (path : Option String) :
    (Report.inspect s lines line skip expectedCount path).map Report.labels =
      scan s lines line skip := by
  rcases Int.lt_or_le line 0 with hline | hline
  · rw [inspect_of_negative hline, scan, if_pos hline]
    rfl
  · rw [inspect_of_nonneg hline, scan, if_neg (Int.not_lt.mpr hline)]
    cases hlocate : s.locate lines (scanStart s lines line skip) with
    | error e => rfl
    | ok found =>
      cases found with
      | none => simp [begun, Except.map]
      | some b =>
        dsimp only
        cases hlabels : s.labels lines b with
        | error e => rfl
        | ok labels =>
          obtain ⟨m, hmarkers⟩ := Settings.exists_markers_of_labels hcheck hlocate hlabels
          simp [hmarkers, bind, Except.bind, pure, Except.pure, Except.map]

/-- A report on lines is what the stages of a scan found, with the warnings of its block and of its
labels. -/
theorem Report.exists_of_inspect {lines : List Line} {line : Int} {skip : Option Bool}
    {expectedCount : Option Int} {path : Option String} {r : Report}
    (h : inspect s lines line skip expectedCount path = .ok r) :
    0 ≤ line ∧ ∃ found : Report, r = (found.warnOfBlock s).warnOfLabels ∧
      (s.locate lines (scanStart s lines line skip) = .ok none ∧
          found = begun s lines line skip expectedCount path ∨
        ∃ b labels m, s.locate lines (scanStart s lines line skip) = .ok (some b) ∧
          s.labels lines b = .ok labels ∧ s.markers = .ok m ∧
          found = { begun s lines line skip expectedCount path with block := some b }.withBlock m
            (b.numbered lines) labels) := by
  rcases Int.lt_or_le line 0 with hline | hline
  · rw [inspect_of_negative hline] at h
    contradiction
  · rw [inspect_of_nonneg hline] at h
    refine ⟨hline, ?_⟩
    cases hlocate : s.locate lines (scanStart s lines line skip) with
    | error e => simp [hlocate] at h
    | ok block =>
      rw [hlocate] at h
      cases block with
      | none => exact ⟨_, (Except.ok.inj h).symm, .inl ⟨rfl, rfl⟩⟩
      | some b =>
        obtain ⟨labels, hlabels, hrest⟩ := ok_of_bind h
        obtain ⟨m, hmarkers, hdone⟩ := ok_of_bind hrest
        exact ⟨_, (Except.ok.inj hdone).symm,
          .inr ⟨b, labels, m, rfl, hlabels, hmarkers, rfl⟩⟩

/-- A report on lines holds the count that it is told to expect, and what it found has no warnings
before those of its block and of its labels. -/
theorem Report.exists_warned_of_inspect {lines : List Line} {line : Int} {skip : Option Bool}
    {expectedCount : Option Int} {path : Option String} {r : Report}
    (h : inspect s lines line skip expectedCount path = .ok r) :
    ∃ found : Report, r = (found.warnOfBlock s).warnOfLabels ∧ found.warnings = [] ∧
      found.expectedCount = expectedCount := by
  obtain ⟨-, found, hr, ⟨-, rfl⟩ | ⟨b, labels, m, -, -, -, rfl⟩⟩ := exists_of_inspect h
  · exact ⟨_, hr, rfl, rfl⟩
  · exact ⟨_, hr, rfl, rfl⟩

/-- A report holds a block and labels exactly if the search finds the block and it has the
labels. -/
theorem Report.exists_inspect_iff {m : Markers} (hmarkers : s.markers = .ok m) {lines : List Line}
    {line : Int} {skip : Option Bool} {expectedCount : Option Int} {path : Option String}
    {b : Block} {labels : List String} :
    (∃ r, inspect s lines line skip expectedCount path = .ok r ∧ r.block = some b ∧
      r.labels = labels) ↔
      0 ≤ line ∧ s.locate lines (scanStart s lines line skip) = .ok (some b) ∧
        s.labels lines b = .ok labels := by
  constructor
  · rintro ⟨r, hr, hblock, rfl⟩
    obtain ⟨hline, found, rfl, ⟨-, rfl⟩ | ⟨other, labels, m', hlocate, hlabels, -, rfl⟩⟩ :=
      exists_of_inspect hr
    · rw [block_warned] at hblock
      contradiction
    · rw [block_warned] at hblock
      obtain rfl : other = b := Option.some.inj hblock
      rw [labels_warned, labels_withBlock]
      exact ⟨hline, hlocate, hlabels⟩
  · rintro ⟨hline, hlocate, hlabels⟩
    rw [inspect_of_nonneg hline]
    simp only [hlocate, hlabels, hmarkers]
    exact ⟨_, rfl, block_warned _ s, labels_warned _ s⟩

/-- Reports succeed when scans do, hold the same labels and fail for the same causes, on lines and
on files. On a file at a negative line both fail. -/
theorem inspect_agrees (hcheck : s.check = .ok s) (line : Int) (skip : Option Bool)
    (expectedCount : Option Int) :
    (∀ lines path, (Report.inspect s lines line skip expectedCount path).map Report.labels =
      scan s lines line skip) ∧
    ∀ d path,
      ((inspectFile d s path line skip expectedCount).map Report.labels).toOption =
        ((scanFile d s ⟨path, line, 0⟩ skip false).map Found.labels).toOption ∧
      (0 ≤ line →
        (inspectFile d s path line skip expectedCount).map Report.labels =
          (scanFile d s ⟨path, line, 0⟩ skip false).map Found.labels) := by
  have hlines (lines : List Line) (path : Option String) :=
    Report.map_labels_inspect hcheck lines line skip expectedCount path
  refine ⟨hlines, fun d path => ?_⟩
  have hfiles (hline : 0 ≤ line) :
      (inspectFile d s path line skip expectedCount).map Report.labels =
        (scanFile d s ⟨path, line, 0⟩ skip false).map Found.labels := by
    cases hload : loadLines d path with
    | error e =>
      rw [inspectFile_of_error hload, scanFile_of_error hline (Int.le_refl 0) hload]
      rfl
    | ok lines =>
      rw [inspectFile_of_ok hload, scanFile_of_ok hline (Int.le_refl 0) hload, hlines]
      cases scan s lines line skip <;> rfl
  refine ⟨?_, hfiles⟩
  rcases Int.lt_or_le line 0 with hnegative | hline
  · rw [scanFile_of_negative hnegative]
    cases hload : loadLines d path with
    | error e =>
      rw [inspectFile_of_error hload]
      rfl
    | ok lines =>
      rw [inspectFile_of_ok hload, hlines, scan, if_pos hnegative]
      rfl
  · rw [hfiles hline]

/-- A report on two cases with the same name, of which it warns, holds both labels, and one on a
file that does not exist tells so. -/
theorem inspect_agrees_default :
    let s : Settings := {}
    let lines := ["enum E \x7b", "case a", "", "case a", "\x7d"].map String.toList
    s.check = .ok s ∧
      (Report.inspect s lines 1 (some false) (some 3) none).map Report.labels = .ok ["a", "a"] ∧
      (inspectFile .empty s "E.swift" 1 (some false) (some 3)).map Report.labels =
        .error (.unreadable "E.swift" "file not found") := by
  intro s lines
  have hcheck : s.check = .ok s := rfl
  obtain ⟨hlines, hfiles⟩ := inspect_agrees hcheck 1 (some false) (some 3)
  refine ⟨hcheck, ?_, ?_⟩
  · rw [hlines lines none]
    rfl
  · rw [(hfiles .empty "E.swift").2 (by decide)]
    rfl

end EnumLabels
