import EnumLabels.Proofs.Report.Accounts
import EnumLabels.Proofs.Report.Prediction
import EnumLabels.Proofs.Scan.FirstReturn
import Mathlib.Data.List.Nodup

/-!
# Warnings tell what was found

Recording a warning leaves out one that is recorded already, so recording several of them adds the
first occurrences of the new ones in their order. The warnings of a report are recorded in this way.
They begin with different words, so none of them is left out for another one, and each is there
exactly if the report found what it tells.
-/

namespace EnumLabels

/-- A list without repetitions is left alone when repetitions are left out. -/
theorem eraseDups_eq_self {messages : List String} (h : messages.Nodup) :
    messages.eraseDups = messages := by
  induction messages with
  | nil => rfl
  | cons message messages ih =>
    obtain ⟨hnew, hrest⟩ := List.nodup_cons.mp h
    have hothers : (messages.filter fun other => !other == message) = messages := by
      rw [List.filter_eq_self]
      intro other hother
      simpa using fun heq : other = message => hnew (heq ▸ hother)
    rw [List.eraseDups_cons, hothers, ih hrest]

namespace Report

/-- Recording warnings one after the other adds the first occurrences of those that are not recorded
yet, in their order, and changes nothing else. -/
theorem foldl_warn (r : Report) (messages : List String) :
    messages.foldl warn r =
      { r with warnings :=
          r.warnings ++ (messages.filter fun w => !r.warnings.contains w).eraseDups } := by
  induction messages generalizing r with
  | nil => simp
  | cons message messages ih =>
    rw [List.foldl_cons, ih, warn]
    by_cases hrecorded : r.warnings.contains message = true
    · simp only [hrecorded, if_true, List.filter_cons, Bool.not_true, Bool.false_eq_true, if_false]
    · rw [Bool.not_eq_true] at hrecorded
      -- Later occurrences are left out because the warning has been recorded by then.
      have hlater : (messages.filter fun w => !(r.warnings ++ [message]).contains w) =
          (messages.filter fun w => !r.warnings.contains w).filter fun w => !w == message := by
        rw [List.filter_filter]
        congr 1
        funext w
        simp [Bool.and_comm, beq_eq_decide]
      simp only [hrecorded, Bool.false_eq_true, if_false, List.filter_cons, Bool.not_false, if_true,
        List.eraseDups_cons, hlater, List.append_assoc, List.singleton_append]

/-- The warning of a closure that never closes. -/
def neverCloses (r : Report) : String :=
  "Closure starting near line " ++ toString r.line ++ " never closes"

/-- The warning that there are no case lines. -/
def noCases (r : Report) (s : Settings) : String :=
  "No '" ++ s.keyword.text.toString ++ "' lines found from line " ++ toString r.cursor

/-- The warning of lines that declare several cases. -/
def severalCases (r : Report) : String :=
  "Lines declaring several cases (only the first is labelled): " ++ lineNumbers r.multiCaseLines

/-- The warning of labels that occur twice. -/
def repeatedLabels (r : Report) : String :=
  "Duplicate labels: " ++ Data.separated r.duplicateLabels

/-- The warning of a number of labels other than expected. -/
def miscounted (r : Report) : String := mismatchWarning r.labels.length (r.expectedCount.getD 0)

/-- The warnings that a report can give, in their order, and whether it gives them. -/
def flags (r : Report) (s : Settings) : List (Bool × String) :=
  [(r.skippedClosure && r.totalLines ≤ r.cursor, r.neverCloses),
    (r.block.isNone, r.noCases s),
    (!r.multiCaseLines.isEmpty, r.severalCases),
    (!r.duplicateLabels.isEmpty, r.repeatedLabels),
    (r.countMatches == some false, r.miscounted)]

/-- The warnings that are given. -/
def flagged (flags : List (Bool × String)) : List String := (flags.filter (·.1)).map (·.2)

section Flags

variable (r : Report) (s : Settings)

/-- A text that begins with two characters begins with them when it goes on. -/
theorem take_two_append {first : String} {c d : Char} (h : first.toList.take 2 = [c, d])
    (rest : String) : (first ++ rest).toList.take 2 = [c, d] := by
  have hlength : 2 ≤ first.toList.length := by
    have hcount := congrArg List.length h
    rw [List.length_take, List.length_cons, List.length_cons, List.length_nil] at hcount
    omega
  rw [String.toList_append, List.take_append_of_le_length hlength, h]

/-- The warnings that a report can give begin with different words. -/
theorem nodup_flags : ((r.flags s).map (·.2)).Nodup := by
  have hnever : r.neverCloses.toList.take 2 = ['C', 'l'] :=
    take_two_append (take_two_append (by decide) _) _
  have hnone : (r.noCases s).toList.take 2 = ['N', 'o'] :=
    take_two_append (take_two_append (take_two_append (by decide) _) _) _
  have hseveral : r.severalCases.toList.take 2 = ['L', 'i'] := take_two_append (by decide) _
  have hrepeated : r.repeatedLabels.toList.take 2 = ['D', 'u'] := take_two_append (by decide) _
  have hmiscounted : r.miscounted.toList.take 2 = ['L', 'a'] :=
    take_two_append (take_two_append (take_two_append (take_two_append (by decide) _) _) _) _
  apply List.Nodup.of_map (·.toList.take 2)
  simp only [flags, List.map_cons, List.map_nil, hnever, hnone, hseveral, hrepeated, hmiscounted]
  decide

/-- Of a list of different warnings those are given of which it is said. -/
theorem mem_flagged_iff {flags : List (Bool × String)} (hnodup : (flags.map (·.2)).Nodup)
    {given : Bool} {warning : String} (h : (given, warning) ∈ flags) :
    warning ∈ flagged flags ↔ given = true := by
  simp only [flagged, List.mem_map, List.mem_filter]
  constructor
  · rintro ⟨flag, ⟨hflag, hgiven⟩, hwarning⟩
    obtain rfl := List.inj_on_of_nodup_map hnodup hflag h hwarning
    exact hgiven
  · intro hgiven
    exact ⟨(given, warning), ⟨h, hgiven⟩, rfl⟩

/-- Recording the warnings that are given is recording each under its condition. -/
theorem foldl_warn_flagged (flags : List (Bool × String)) :
    (flagged flags).foldl warn r = flags.foldl (fun r flag => r.warnIf flag.1 flag.2) r := by
  rw [flagged, List.foldl_map, List.foldl_filter]
  rfl

/-- A report without warnings is given those of its flags, in their order. -/
theorem warnings_warned (hnone : r.warnings = []) :
    (r.warnOfBlock s).warnOfLabels.warnings = flagged (r.flags s) := by
  have hfindings : (r.warnOfBlock s).findings = r.findings := by simp [warnOfBlock]
  have hflags : ((r.warnOfBlock s).flags s).drop 2 = (r.flags s).drop 2 := by
    change ((r.warnOfBlock s).findings.flags s).drop 2 = (r.findings.flags s).drop 2
    rw [hfindings]
  have hwarned : (r.warnOfBlock s).warnOfLabels = (flagged (r.flags s)).foldl warn r := by
    rw [foldl_warn_flagged, ← List.take_append_drop 2 (r.flags s), List.foldl_append, ← hflags]
    rfl
  have hnodup : (flagged (r.flags s)).Nodup :=
    (r.nodup_flags s).sublist (List.filter_sublist.map _)
  rw [hwarned, foldl_warn, hnone]
  simp [eraseDups_eq_self hnodup]

end Flags

/-- A report that warns of what it found in a fixed order, of each finding once, and of nothing
else: its warnings are some of five that differ, and of each of these it is said when it is there. -/
structure WarnsOfFindings (r : Report) (s : Settings) (lines : List Line) : Prop where
  nodup : r.warnings.Nodup
  sublist : r.warnings.Sublist
    [r.neverCloses, r.noCases s, r.severalCases, r.repeatedLabels, r.miscounted]
  mem_neverCloses_iff : r.neverCloses ∈ r.warnings ↔ r.skippedClosure = true ∧
    ∀ n, ¬ s.braces.ReachesAt 0 (lines.drop (max 0 (r.line - 1)).toNat).flatten n
  mem_noCases_iff : r.noCases s ∈ r.warnings ↔
    ∀ line ∈ lines.drop r.cursor.toNat, s.isCase line = .ok false
  mem_severalCases_iff : r.severalCases ∈ r.warnings ↔ r.multiCaseLines ≠ []
  mem_repeatedLabels_iff : r.repeatedLabels ∈ r.warnings ↔ ∃ label, 2 ≤ r.labels.count label
  mem_miscounted_iff : r.miscounted ∈ r.warnings ↔
    ∃ n, r.expectedCount = some n ∧ n ≠ r.labels.length

section Inspected

variable {s : Settings} {lines : List Line} {line : Int} {skip : Option Bool}
  {expectedCount : Option Int} {path : Option String} {r : Report}
  (h : inspect s lines line skip expectedCount path = .ok r)
include h

/-- A report says what it began with. -/
theorem begun_of_inspect :
    r.line = line ∧ r.totalLines = lines.length ∧ r.cursor = scanStart s lines line skip ∧
      r.skippedClosure = skipsClosure s skip := by
  obtain ⟨-, found, rfl, hfound⟩ := exists_of_inspect h
  have hfindings := found.findings_warned s
  have hbegun : found.line = line ∧ found.totalLines = lines.length ∧
      found.cursor = scanStart s lines line skip ∧ found.skippedClosure = skipsClosure s skip := by
    obtain ⟨-, rfl⟩ | ⟨b, labels, m, -, -, -, rfl⟩ := hfound <;> exact ⟨rfl, rfl, rfl, rfl⟩
  obtain ⟨hline, htotal, hcursor, hskipped⟩ := hbegun
  refine ⟨?_, ?_, ?_, ?_⟩
  · exact (congrArg (·.line) hfindings).trans hline
  · exact (congrArg (·.totalLines) hfindings).trans htotal
  · exact (congrArg (·.cursor) hfindings).trans hcursor
  · exact (congrArg (·.skippedClosure) hfindings).trans hskipped

/-- A report has no block exactly if the search finds none. -/
theorem block_eq_none_iff_of_inspect :
    r.block = none ↔ s.locate lines (scanStart s lines line skip) = .ok none := by
  obtain ⟨-, found, rfl, ⟨hlocate, rfl⟩ | ⟨b, labels, m, hlocate, -, -, rfl⟩⟩ :=
    exists_of_inspect h
  · simp [hlocate, begun]
  · simp [hlocate, withBlock]

/-- The warnings of a report are those of its flags, in their order. -/
theorem warnings_of_inspect : r.warnings = flagged (r.flags s) := by
  obtain ⟨found, rfl, hnone, -⟩ := exists_warned_of_inspect h
  have hflags : (found.warnOfBlock s).warnOfLabels.flags s = found.flags s := by
    change (found.warnOfBlock s).warnOfLabels.findings.flags s = found.findings.flags s
    rw [findings_warned]
  rw [warnings_warned found s hnone, hflags]

/-- A report warns of what it found. -/
theorem warnsOfFindings_of_inspect (hcheck : s.check = .ok s) : r.WarnsOfFindings s lines := by
  obtain ⟨hline, htotal, hcursor, hskipped⟩ := begun_of_inspect h
  have hnodup := r.nodup_flags s
  have hsublist : (flagged (r.flags s)).Sublist ((r.flags s).map (·.2)) :=
    List.filter_sublist.map _
  have hgiven (given : Bool) {warning : String} (hflag : (given, warning) ∈ r.flags s) :
      warning ∈ r.warnings ↔ given = true := by
    rw [warnings_of_inspect h]
    exact mem_flagged_iff hnodup hflag
  constructor
  case nodup => exact warnings_of_inspect h ▸ hnodup.sublist hsublist
  case sublist => exact warnings_of_inspect h ▸ hsublist
  case mem_neverCloses_iff =>
    have hstart : (max 0 (line - 1)).toNat = (line - 1).toNat := by omega
    rw [hgiven (r.skippedClosure && r.totalLines ≤ r.cursor) (by simp [flags]),
      Bool.and_eq_true, decide_eq_true_iff, htotal, hcursor, Int.ofNat_le, hline, hstart]
    refine and_congr_right fun hskips => ?_
    rw [scanStart, if_pos (hskipped ▸ hskips)]
    have hdistinct := Settings.areDistinct_braces hcheck
    obtain ⟨n, hn, -, hlt⟩ | ⟨hnone, hlength⟩ := skipClosure_cases hdistinct lines line
    · exact iff_of_false (Nat.not_le.mpr hlt) fun hnone => hnone n hn.reaches
    · exact iff_of_true hlength.ge hnone
  case mem_noCases_iff =>
    rw [hgiven (r.block.isNone) (by simp [flags]), Option.isNone_iff_eq_none,
      block_eq_none_iff_of_inspect h, Settings.locate_eq_none_iff, hcursor, Int.toNat_natCast]
  case mem_severalCases_iff =>
    rw [hgiven (!r.multiCaseLines.isEmpty) (by simp [flags])]
    simp
  case mem_repeatedLabels_iff =>
    rw [hgiven (!r.duplicateLabels.isEmpty) (by simp [flags]),
      duplicateLabels_of_inspect h, Bool.not_eq_true', List.isEmpty_eq_false_iff_exists_mem]
    simp only [mem_duplicates_iff]
  case mem_miscounted_iff =>
    rw [hgiven (r.countMatches == some false) (by simp [flags]), beq_iff_eq, countMatches,
      Option.map_eq_some_iff]
    simp only [beq_eq_false_iff_ne]

end Inspected

end Report

/-- A report warns of what it found in a fixed order, of each finding once, and of nothing else. In
general, recording warnings one after the other adds the first occurrences of those that are not
recorded yet, in their order, and changes nothing else. -/
theorem warnings_tell_findings {s : Settings} (hcheck : s.check = .ok s) {lines : List Line}
    {line : Int} {skip : Option Bool} {expectedCount : Option Int} {path : Option String}
    {r : Report} (h : Report.inspect s lines line skip expectedCount path = .ok r) :
    r.WarnsOfFindings s lines ∧ r.line = line ∧ r.skippedClosure = skipsClosure s skip ∧
      r.cursor = scanStart s lines line skip ∧ r.expectedCount = expectedCount ∧
    ∀ (other : Report) (messages : List String),
      messages.foldl Report.warn other =
        { other with warnings := other.warnings ++
            (messages.filter fun w => !other.warnings.contains w).eraseDups } := by
  obtain ⟨hline, -, hcursor, hskipped⟩ := Report.begun_of_inspect h
  exact ⟨Report.warnsOfFindings_of_inspect h hcheck, hline, hskipped, hcursor,
    Report.expectedCount_of_inspect h, Report.foldl_warn⟩

/-- A report on a closure that never closes, behind which no case is left, warns of both and of the
label that is missing. -/
theorem warnings_tell_findings_unclosed :
    let lines := ["Gen \x7b", "case a"].map String.toList
    ({} : Settings).check = .ok {} ∧
      ∃ r, Report.inspect {} lines 1 none (some 1) none = .ok r ∧
        r.warnings = ["Closure starting near line 1 never closes",
          "No 'case' lines found from line 2",
          "Label count mismatch: 0 label(s) for 1 case(s)"] ∧
        r.WarnsOfFindings {} lines ∧ r.line = 1 ∧ r.skippedClosure = true ∧ r.cursor = 2 ∧
        r.expectedCount = some 1 := by
  intro lines
  have hcheck : ({} : Settings).check = .ok {} := rfl
  obtain ⟨r, hr, hwarnings⟩ : ∃ r, Report.inspect {} lines 1 none (some 1) none = .ok r ∧
      r.warnings = ["Closure starting near line 1 never closes",
        "No 'case' lines found from line 2",
        "Label count mismatch: 0 label(s) for 1 case(s)"] := ⟨_, rfl, by decide +kernel⟩
  obtain ⟨hall, hline, hskipped, hcursor, hcount, -⟩ := warnings_tell_findings hcheck hr
  exact ⟨hcheck, r, hr, hwarnings, hall, hline, hskipped, hcursor, hcount⟩

end EnumLabels
