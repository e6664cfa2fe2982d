import EnumLabels.Proofs.Report.Agreement
import EnumLabels.Proofs.Scan.FirstBlock
import EnumLabels.Proofs.Stages
import EnumLabels.Proofs.Table.Pairs
import EnumLabels.Table.Source

/-!
# Reports predict tables

A table whose labels are scanned and a report that expects as many labels as there are cases look
at the same lines. So the table is built when the counts match, it fails for its count when they do
not, and where one fails for another cause the other does too.

A report warns of a mismatch exactly when the counts do not match: no other warning begins with the
same words.
-/

namespace EnumLabels

namespace Report

variable (r : Report)

/-- A warning is recorded beside those that are recorded already. -/
@[simp] theorem mem_warnings_warnIf {condition : Bool} {warning w : String} :
    w ∈ (r.warnIf condition warning).warnings ↔
      w ∈ r.warnings ∨ condition = true ∧ w = warning := by
  cases condition with
  | false => simp [warnIf]
  | true =>
    by_cases hrecorded : warning ∈ r.warnings
    · have hsame : r.warnIf true warning = r := by simp [warnIf, warn, hrecorded]
      rw [hsame]
      constructor
      · exact Or.inl
      · rintro (hw | ⟨-, rfl⟩)
        · exact hw
        · exact hrecorded
    · simp [warnIf, warn, hrecorded]

/-- The words with which a warning of a mismatch begins. -/
def mismatchWords : String := "Label count mismatch: "

/-- Whether a warning is one of a mismatch. -/
def IsMismatch (warning : String) : Prop := mismatchWords.toList <+: warning.toList

/-- The warning of a mismatch between the labels and a number of cases. -/
def mismatchWarning (labels : Nat) (cases : Int) : String :=
  mismatchWords ++ toString labels ++ " label(s) for " ++ toString cases ++ " case(s)"

/-- A warning of a mismatch begins with its words. -/
theorem isMismatch_mismatchWarning (labels : Nat) (cases : Int) :
    IsMismatch (mismatchWarning labels cases) := by
  simp [IsMismatch, mismatchWarning]

/-- A text whose first two characters are others is no warning of a mismatch. -/
theorem not_isMismatch_append {first : String} (rest : String) (hlength : 2 ≤ first.toList.length)
    (hne : first.toList.take 2 ≠ mismatchWords.toList.take 2) : ¬ IsMismatch (first ++ rest) := by
  rintro ⟨more, hmore⟩
  have hwords : 2 ≤ mismatchWords.toList.length := by decide
  have htake := congrArg (List.take 2) hmore
  rw [String.toList_append, List.take_append_of_le_length hwords,
    List.take_append_of_le_length hlength] at htake
  exact hne htake.symm

/-- Warnings of the block are no warnings of a mismatch. -/
theorem not_isMismatch_warnOfBlock {r : Report} (hnone : ∀ w ∈ r.warnings, ¬ IsMismatch w)
    (s : Settings) : ∀ w ∈ (r.warnOfBlock s).warnings, ¬ IsMismatch w := by
  intro w hw
  simp only [warnOfBlock, mem_warnings_warnIf] at hw
  rcases hw with (hw | ⟨-, rfl⟩) | ⟨-, rfl⟩
  · exact hnone w hw
  · rw [String.append_assoc]
    exact not_isMismatch_append _ (by decide) (by decide)
  · rw [String.append_assoc, String.append_assoc]
    exact not_isMismatch_append _ (by decide) (by decide)

/-- Of the warnings of the labels just the last is one of a mismatch. It is given when the counts do
not match. -/
theorem mem_warnings_warnOfLabels_iff {r : Report} (hnone : ∀ w ∈ r.warnings, ¬ IsMismatch w)
    {w : String} (hw : IsMismatch w) :
    w ∈ r.warnOfLabels.warnings ↔
      r.countMatches = some false ∧
        w = mismatchWarning r.labels.length (r.expectedCount.getD 0) := by
  have hother (first rest : String) (hlength : 2 ≤ first.toList.length)
      (hne : first.toList.take 2 ≠ mismatchWords.toList.take 2) : w ≠ first ++ rest := by
    rintro rfl
    exact not_isMismatch_append rest hlength hne hw
  have hcases := hother "Lines declaring several cases (only the first is labelled): "
    (lineNumbers r.multiCaseLines) (by decide) (by decide)
  have hduplicates := hother "Duplicate labels: " (Data.separated r.duplicateLabels) (by decide)
    (by decide)
  have hrecorded : w ∉ r.warnings := fun hmem => hnone w hmem hw
  unfold warnOfLabels
  simp only [mem_warnings_warnIf, hcases, hduplicates, hrecorded, and_false, or_false, false_or,
    beq_iff_eq]
  rfl

section Inspected

variable {s : Settings} {lines : List Line} {line : Int} {skip : Option Bool}
  {expectedCount : Option Int} {path : Option String} {r : Report}
  (h : inspect s lines line skip expectedCount path = .ok r)
include h

/-- A report holds the count that it is told to expect. -/
theorem expectedCount_of_inspect : r.expectedCount = expectedCount := by
  obtain ⟨found, rfl, -, hcount⟩ := exists_warned_of_inspect h
  rw [expectedCount_warned, hcount]

/-- A report has a warning of a mismatch when the counts do not match, and only one. -/
theorem mem_warnings_iff_of_inspect {w : String} (hw : IsMismatch w) :
    w ∈ r.warnings ↔
      r.countMatches = some false ∧
        w = mismatchWarning r.labels.length (r.expectedCount.getD 0) := by
  obtain ⟨found, rfl, hwarnings, -⟩ := exists_warned_of_inspect h
  have hnone := not_isMismatch_warnOfBlock (r := found) (by simp [hwarnings]) s
  have hfindings := (found.warnOfBlock s).findings_warnOfLabels
  have hlabels : (found.warnOfBlock s).warnOfLabels.labels = (found.warnOfBlock s).labels :=
    congrArg (·.labels) hfindings
  have hcount : (found.warnOfBlock s).warnOfLabels.expectedCount =
      (found.warnOfBlock s).expectedCount := congrArg (·.expectedCount) hfindings
  rw [mem_warnings_warnOfLabels_iff hnone hw]
  simp only [countMatches, hlabels, hcount]

end Inspected

end Report

namespace Settings

variable {s : Settings} {e : Error}

/-- A setting that is no text has the wrong type. -/
theorem eq_wrongType_of_characters {d : Data} (h : characters d = .error e) : e = .wrongType := by
  unfold characters at h
  split at h
  · contradiction
  · exact (Except.error.inj h).symm

/-- A line is compared with the keyword unless that has the wrong type. -/
theorem eq_wrongType_of_isCase {line : Line} (h : s.isCase line = .error e) : e = .wrongType :=
  eq_wrongType_of_characters (error_of_map h)

/-- A line is compared with the comment marker unless that has the wrong type. -/
theorem eq_wrongType_of_isFiller {line : Line} (h : s.isFiller line = .error e) :
    e = .wrongType := by
  unfold isFiller at h
  split at h
  · contradiction
  · exact eq_wrongType_of_characters (error_of_map h)

/-- The lines of a block are counted unless a marker has the wrong type. -/
theorem eq_wrongType_of_countContinued {lines : List Line}
    (h : s.countContinued lines = .error e) : e = .wrongType := by
  induction lines with
  | nil => contradiction
  | cons line lines ih =>
    rcases error_of_bind h with hcontinues | ⟨continued, -, hrest⟩
    · rcases error_of_bind hcontinues with hcase | ⟨opens, -, hfiller⟩
      · exact eq_wrongType_of_isCase hcase
      · cases opens with
        | true => contradiction
        | false => exact eq_wrongType_of_isFiller hfiller
    · cases continued with
      | false => contradiction
      | true =>
        rcases error_of_bind hrest with hcount | ⟨count, -, hdone⟩
        · exact ih hcount
        · contradiction

/-- A block is sought unless a marker has the wrong type. -/
theorem eq_wrongType_of_firstBlock {number : Int} {lines : List Line}
    (h : s.firstBlock number lines = .error e) : e = .wrongType := by
  induction lines generalizing number with
  | nil => contradiction
  | cons line lines ih =>
    rcases error_of_bind h with hcase | ⟨opens, -, hrest⟩
    · exact eq_wrongType_of_isCase hcase
    · cases opens with
      | false => exact ih hrest
      | true =>
        rcases error_of_bind hrest with hcount | ⟨count, -, hdone⟩
        · exact eq_wrongType_of_countContinued hcount
        · contradiction

/-- A line gives a label unless a marker has the wrong type or it has no name. -/
theorem error_of_lineLabel {number : Int} {line : Line} (h : s.lineLabel number line = .error e) :
    e = .wrongType ∨ ∃ text, e = .unnamedCase number text := by
  rcases error_of_bind h with hfiller | ⟨filler, -, hrest⟩
  · exact .inl (eq_wrongType_of_isFiller hfiller)
  · cases filler with
    | true => contradiction
    | false =>
      rw [if_neg Bool.false_ne_true] at hrest
      split at hrest
      · exact .inl (Except.error.inj hrest).symm
      · split at hrest
        · exact .inr ⟨_, (Except.error.inj hrest).symm⟩
        · contradiction

/-- A block is located unless a marker has the wrong type. -/
theorem eq_wrongType_of_locate {lines : List Line} {cursor : Nat}
    (h : s.locate lines cursor = .error e) : e = .wrongType := by
  rw [locate_eq_firstBlock] at h
  exact eq_wrongType_of_firstBlock h

end Settings

/-- The labels of numbered lines are found unless a case has no name. -/
theorem error_of_labelsOf {m : Markers} {numbered : List (Int × Line)} {e : Error}
    (h : labelsOf m numbered = .error e) : ∃ number text, e = .unnamedCase number text := by
  have houtcome := labelsOf_renumbered id m numbered
  rw [h] at houtcome
  generalize labelsOf m (numbered.map fun n => (id n.1, n.2)) = second at houtcome
  cases houtcome with
  | unnamedCase number text => exact ⟨number, text, rfl⟩

/-- Labels that were read are returned unless a number of the block has no line. -/
theorem Block.eq_noSuchLine_of_complete {b : Block} {lines : List Line} {labels : List String}
    {e : Error} (h : b.complete lines labels = .error e) : e = .noSuchLine := by
  unfold complete at h
  split at h
  · contradiction
  · exact (Except.error.inj h).symm

/-- What can be wrong with the labels of a block. -/
theorem Settings.error_of_labels {s : Settings} {lines : List Line} {b : Block} {e : Error}
    (h : s.labels lines b = .error e) :
    e = .wrongType ∨ e = .noSuchLine ∨ ∃ number text, e = .unnamedCase number text := by
  rw [labels_eq_mapM_lineLabel] at h
  split at h
  · next e' hlabels =>
    obtain rfl := Except.error.inj h
    obtain ⟨n, -, hfails⟩ := exists_of_mapM_error hlabels
    rcases error_of_lineLabel hfails with htype | ⟨text, hname⟩
    · exact .inl htype
    · exact .inr (.inr ⟨_, text, hname⟩)
  · exact .inr (.inl (Block.eq_noSuchLine_of_complete h))

/-- What can be wrong with a scan of lines. -/
theorem error_of_scan {s : Settings} {lines : List Line} {line : Int} {skip : Option Bool}
    {e : Error} (h : scan s lines line skip = .error e) :
    e = .negativeLine line ∨ e = .wrongType ∨ e = .noSuchLine ∨
      ∃ number text, e = .unnamedCase number text := by
  unfold scan at h
  by_cases hline : line < 0
  · rw [if_pos hline] at h
    exact .inl (Except.error.inj h).symm
  · rw [if_neg hline] at h
    cases hlocate : s.locate lines (scanStart s lines line skip) with
    | error e' =>
      rw [hlocate] at h
      obtain rfl := Except.error.inj h
      exact .inr (.inl (Settings.eq_wrongType_of_locate hlocate))
    | ok found =>
      rw [hlocate] at h
      cases found with
      | none => contradiction
      | some b => exact .inr (Settings.error_of_labels h)

/-- With options, a scan of lines from a line that is not negative fails at a case without a
name. -/
theorem Options.error_of_scan {o : Options} {lines : List Line} {line : Int} (hline : 0 ≤ line)
    {skip : Option Bool} {e : Error} (h : scan o lines line skip = .error e) :
    ∃ number text, e = .unnamedCase number text := by
  rw [o.scan_eq_read lines hline skip] at h
  exact error_of_labelsOf h

/-- A file that cannot be loaded is unreadable if its path can be one. -/
theorem error_of_loadLines {d : Directory} {path : String} {e : Error}
    (hpath : Directory.hasNul path = false) (h : loadLines d path = .error e) :
    ∃ reason, e = .unreadable path reason := by
  unfold loadLines at h
  rw [hpath, if_neg Bool.false_ne_true] at h
  split at h
  · exact ⟨_, (Except.error.inj h).symm⟩
  · contradiction

/-- A report on a file is one on lines. -/
theorem exists_of_inspectFile {s : Settings} {d : Directory} {path : String} {line : Int}
    {skip : Option Bool} {expectedCount : Option Int} {r : Report}
    (h : inspectFile d s path line skip expectedCount = .ok r) :
    ∃ lines, Report.inspect s lines line skip expectedCount (some path) = .ok r := by
  cases hload : loadLines d path with
  | error e =>
    rw [inspectFile_of_error hload] at h
    contradiction
  | ok lines =>
    rw [inspectFile_of_ok hload] at h
    exact ⟨lines, h⟩

/-- What can be wrong with a report on a file. -/
theorem error_of_inspectFile {s : Settings} (hcheck : s.check = .ok s) {d : Directory}
    {path : String} (hpath : Directory.hasNul path = false) {line : Int} (hline : 0 ≤ line)
    {skip : Option Bool} {expectedCount : Option Int} {e : Error}
    (h : inspectFile d s path line skip expectedCount = .error e) :
    (∀ cases labels place, e ≠ .countMismatch cases labels place) ∧
      ∀ o : Options, s = o → e.isScanError = true := by
  cases hload : loadLines d path with
  | error e' =>
    rw [inspectFile_of_error hload] at h
    obtain rfl := Except.error.inj h
    obtain ⟨reason, rfl⟩ := error_of_loadLines hpath hload
    exact ⟨by intros; nofun, fun _ _ => rfl⟩
  | ok lines =>
    rw [inspectFile_of_ok hload] at h
    have hscan := Report.map_labels_inspect hcheck lines line skip expectedCount (some path)
    rw [h] at hscan
    constructor
    · rcases error_of_scan hscan.symm with rfl | rfl | rfl | ⟨number, text, rfl⟩ <;>
        (intros; nofun)
    · rintro o rfl
      obtain ⟨number, text, rfl⟩ := o.error_of_scan hline hscan.symm
      rfl

namespace Table

/-- Scanned labels as the labels of a table. -/
def scannedLabels (labels : List String) : List Data := labels.map fun label => .str (.chars label)

/-- Scanning gives as many labels to a table as it finds. -/
@[simp] theorem length_scannedLabels (labels : List String) :
    (scannedLabels labels).length = labels.length := List.length_map _

/-- A table is made when there are as many labels as cases, which it holds. -/
theorem make_eq_ok_iff {cases : List Case} {labels : List Data} {place : Option String}
    {t : Table} :
    make cases labels place = .ok t ↔
      cases.length = labels.length ∧ t.cases = cases ∧ t.labels = labels := by
  unfold make
  split
  · next hlength =>
    constructor
    · intro h
      obtain rfl := Except.ok.inj h
      exact ⟨hlength, rfl, rfl⟩
    · rintro ⟨-, hcases, hlabels⟩
      exact congrArg Except.ok (eq_of_cases_of_labels hcases.symm hlabels.symm)
  · next hlength => exact ⟨nofun, fun h => absurd h.1 hlength⟩

/-- A table is not made for no other cause than that the numbers of cases and labels differ. -/
theorem make_eq_error_iff {cases : List Case} {labels : List Data} {place : Option String}
    {e : Error} :
    make cases labels place = .error e ↔
      cases.length ≠ labels.length ∧ e = .countMismatch cases.length labels.length place := by
  unfold make
  split
  · next hlength => exact ⟨nofun, fun h => absurd hlength h.1⟩
  · next hlength =>
    constructor
    · intro h
      exact ⟨hlength, (Except.error.inj h).symm⟩
    · rintro ⟨-, rfl⟩
      rfl

section Sources

variable {s : Settings} {d : Directory} {path : String} {line column : Int} (hline : 0 ≤ line)
  (hcolumn : 0 ≤ column) (cases : List Case) (skip : Option Bool)
include hline hcolumn

/-- A table cannot be labelled by a file that cannot be loaded, for the same cause. -/
theorem ofSource_of_error {e : Error} (hload : loadLines d path = .error e) :
    ofSource d s cases ⟨path, line, column⟩ skip = .error e := by
  unfold ofSource
  rw [scanFile_of_error hline hcolumn hload]
  rfl

/-- A table is labelled by a scan of the lines of a file. -/
theorem ofSource_of_ok {lines : List Line} (hload : loadLines d path = .ok lines) :
    ofSource d s cases ⟨path, line, column⟩ skip =
      scan s lines line skip >>= fun labels =>
        make cases (scannedLabels labels) (some (path ++ ":" ++ toString line)) := by
  unfold ofSource
  rw [scanFile_of_ok hline hcolumn hload]
  cases scan s lines line skip <;> rfl

/-- A report that expects a label for every case decides what becomes of a table. -/
theorem ofSource_of_inspectFile (hcheck : s.check = .ok s) (d : Directory) (path : String) :
    match inspectFile d s path line skip (some cases.length) with
    | .error e => ofSource d s cases ⟨path, line, column⟩ skip = .error e
    | .ok r =>
      r.countMatches = some (decide (cases.length = r.labels.length)) ∧
        ofSource d s cases ⟨path, line, column⟩ skip =
          make cases (scannedLabels r.labels) (some (path ++ ":" ++ toString line)) := by
  cases hload : loadLines d path with
  | error e =>
    rw [inspectFile_of_error hload]
    exact ofSource_of_error hline hcolumn cases skip hload
  | ok lines =>
    have hscan := Report.map_labels_inspect hcheck lines line skip (some cases.length) (some path)
    rw [inspectFile_of_ok hload, ofSource_of_ok hline hcolumn cases skip hload, ← hscan]
    cases hinspect : Report.inspect s lines line skip (some cases.length) (some path) with
    | error e => rfl
    | ok r =>
      refine ⟨?_, rfl⟩
      rw [Report.countMatches, Report.expectedCount_of_inspect hinspect, Option.map_some]
      rw [beq_eq_decide, decide_eq_decide.mpr Int.ofNat_inj]

end Sources

end Table

end EnumLabels
