import EnumLabels.Proofs.Scan.Nesting
import EnumLabels.Proofs.Settings.Markers
import EnumLabels.Proofs.Text.CarriageReturn
import EnumLabels.Report

/-!
# A scan looks at trimmed lines

Lines are told apart, labelled and quoted in errors by their trimmed text. Only braces are counted
in the lines as they are, and no brace is lost by trimming if braces are not blank. So trimming
the lines beforehand changes nothing that a scan finds, whatever the settings are, and lines that
trim alike are scanned alike. Carriage returns at the ends of lines are an instance of this.
-/

namespace EnumLabels

namespace Line

variable (m : Markers) (line : Line)

/-- A line is blank if its trimmed text is. -/
@[simp] theorem isBlank_trim : Line.isBlank (Text.trim line) = line.isBlank := by
  rw [isBlank, Text.trim_trim, isBlank]

/-- A line is a filler line if its trimmed text is. -/
@[simp] theorem isFiller_trim : Line.isFiller m (Text.trim line) = line.isFiller m := by
  rw [isFiller, isBlank_trim, Text.trim_trim, isFiller]

/-- A line starts with a keyword if its trimmed text does. -/
@[simp] theorem opensWith_trim (keyword : List Char) :
    Line.opensWith keyword (Text.trim line) = line.opensWith keyword := by
  rw [opensWith, Text.trim_trim, opensWith]

/-- A line declares several cases if its trimmed text does. -/
@[simp] theorem isMultiCase_trim : Line.isMultiCase m (Text.trim line) = line.isMultiCase m := by
  rw [isMultiCase, Text.trim_trim, isMultiCase]

end Line

section Closure

variable {braces : Braces} (hopening : ∀ c ∈ braces.opening, Text.isBlank c = false)
  (hclosing : ∀ c ∈ braces.closing, Text.isBlank c = false)

include hopening hclosing

/-- Blanks leave a nesting as it is. -/
theorem Nesting.readLine?_of_isBlank {n : Nesting} (hn : n.isClosed = false) {blanks : List Char}
    (hblanks : ∀ c ∈ blanks, Text.isBlank c = true) : n.readLine? braces blanks = some n := by
  refine readLine?_eq_self hn ?_ ?_
  · intro c hc hbrace
    have hblank := hblanks c hc
    rw [hopening c hbrace] at hblank
    contradiction
  · intro c hc hbrace
    have hblank := hblanks c hc
    rw [hclosing c hbrace] at hblank
    contradiction

/-- A line closes a closure if its trimmed text does, and leaves it as deep. -/
theorem Nesting.readLine?_trim {n : Nesting} (hn : n.isClosed = false) (line : Line) :
    n.readLine? braces (Text.trim line) = n.readLine? braces line := by
  obtain ⟨lead, tail, hline, hlead, htail⟩ := Text.exists_eq_append_trim line
  have hread : n.readLine? braces line =
      (n.readLine? braces (Text.trim line)).bind fun n' => n'.readLine? braces tail := by
    conv => lhs; rw [hline]
    rw [readLine?_append, readLine?_of_isBlank hopening hclosing hn hlead, Option.bind_some,
      readLine?_append]
  rw [hread]
  cases htrim : n.readLine? braces (Text.trim line) with
  | none => rfl
  | some n' =>
    have hn' := isClosed_of_readLine? hn htrim
    rw [Option.bind_some, readLine?_of_isBlank hopening hclosing hn' htail]

/-- In trimmed lines the same closure is skipped. -/
theorem skipClosure_map_trim (lines : List Line) (line : Int) :
    skipClosure braces (lines.map Text.trim) line = skipClosure braces lines line := by
  refine skipClosure_eq_of_nestAlike (List.forall₂_map_right_iff.mpr ?_) line
  exact List.forall₂_same.mpr fun line _ n hn => Nesting.readLine?_trim hopening hclosing hn line

end Closure

/-- Numbered lines with their trimmed texts. -/
def trimmed (numbered : List (Int × Line)) : List (Int × Line) :=
  numbered.map fun n => (n.1, Text.trim n.2)

/-- Trimmed lines from a number on are the lines from that number on, trimmed. -/
theorem linesFrom?_map_trim (lines : List Line) (start : Int) :
    linesFrom? (lines.map Text.trim) start = (linesFrom? lines start).map (List.map Text.trim) := by
  simp only [linesFrom?, List.length_map]
  split
  · rw [Option.map_some, List.map_drop]
  · split
    · rw [Option.map_some, List.map_append, List.map_drop]
    · rfl

namespace Block

variable (b : Block) (lines : List Line)

/-- Trimmed lines have the numbers of the lines. -/
theorem numbered_map_trim : b.numbered (lines.map Text.trim) = trimmed (b.numbered lines) := by
  rw [numbered, linesFrom?_map_trim, numbered]
  cases linesFrom? lines b.first with
  | none => rfl
  | some rest =>
    simp only [Option.map_some, ← List.map_take, List.zipIdx_map, List.map_map, trimmed]
    rfl

/-- Trimmed lines are as complete as the lines. -/
theorem complete_map_trim (labels : List String) :
    b.complete (lines.map Text.trim) labels = b.complete lines labels := by
  rw [complete, numbered_map_trim, trimmed, List.length_map, complete]

end Block

namespace Settings

variable (s : Settings)

/-- Settings tell a trimmed line to be a filler line if they do the line. -/
@[simp] theorem isFiller_trim (line : Line) : s.isFiller (Text.trim line) = s.isFiller line := by
  rw [isFiller, Line.isBlank_trim, Text.trim_trim, isFiller]

/-- Settings tell a trimmed line to be a case line if they do the line. -/
@[simp] theorem isCase_trim (line : Line) : s.isCase (Text.trim line) = s.isCase line := by
  simp only [isCase, Line.opensWith_trim]

/-- A block goes on with a trimmed line if it does with the line. -/
@[simp] theorem continues_trim (line : Line) :
    s.continues (Text.trim line) = s.continues line := by
  rw [continues, isCase_trim, isFiller_trim, continues]

/-- A block goes on with as many trimmed lines. -/
theorem countContinued_map_trim (lines : List Line) :
    s.countContinued (lines.map Text.trim) = s.countContinued lines := by
  induction lines with
  | nil => rfl
  | cons line lines ih => simp only [List.map_cons, countContinued, continues_trim, ih]

/-- Trimmed lines have the same first block. -/
theorem firstBlock_map_trim (number : Int) (lines : List Line) :
    s.firstBlock number (lines.map Text.trim) = s.firstBlock number lines := by
  induction lines generalizing number with
  | nil => rfl
  | cons line lines ih =>
    simp only [List.map_cons, firstBlock, isCase_trim, countContinued_map_trim, ih]

/-- In trimmed lines settings find the same block. -/
theorem locate_map_trim (lines : List Line) (cursor : Nat) :
    s.locate (lines.map Text.trim) cursor = s.locate lines cursor := by
  rw [locate_eq_firstBlock, ← List.map_drop, firstBlock_map_trim, ← locate_eq_firstBlock]

/-- A trimmed line has the label of the line. -/
@[simp] theorem lineLabel_trim (number : Int) (line : Line) :
    s.lineLabel number (Text.trim line) = s.lineLabel number line := by
  rw [lineLabel, isFiller_trim, Text.trim_trim, lineLabel]

/-- A block of trimmed lines has the same labels. -/
theorem labels_map_trim (lines : List Line) (b : Block) :
    s.labels (lines.map Text.trim) b = s.labels lines b := by
  simp only [labels_eq_mapM_lineLabel, b.numbered_map_trim, trimmed, List.mapM_map,
    Function.comp_def, lineLabel_trim, b.complete_map_trim]

end Settings

/-- A report finds the same in the trimmed lines of a block. -/
theorem Report.withBlock_trimmed (r : Report) (m : Markers) (numbered : List (Int × Line))
    (labels : List String) :
    r.withBlock m (trimmed numbered) labels = r.withBlock m numbered labels := by
  simp only [withBlock, numbersWhere, trimmed, List.filter_map, List.map_map, Function.comp_def,
    Line.isFiller_trim, Line.isMultiCase_trim]

section Scan

variable {s : Settings} (hopening : ∀ c ∈ s.braces.opening, Text.isBlank c = false)
  (hclosing : ∀ c ∈ s.braces.closing, Text.isBlank c = false)

include hopening hclosing

/-- A scan of trimmed lines begins at the same line. -/
theorem scanStart_map_trim (lines : List Line) (line : Int) (skip : Option Bool) :
    scanStart s (lines.map Text.trim) line skip = scanStart s lines line skip := by
  rw [scanStart, skipClosure_map_trim hopening hclosing, scanStart]

/-- A scan of trimmed lines has the same outcome. -/
theorem scan_map_trim (lines : List Line) (line : Int) (skip : Option Bool) :
    scan s (lines.map Text.trim) line skip = scan s lines line skip := by
  simp only [scan, scanStart_map_trim hopening hclosing, s.locate_map_trim, s.labels_map_trim]

/-- A report on trimmed lines begins alike. -/
theorem Report.beforeSearch_map_trim (lines : List Line) (line : Int) (skip : Option Bool)
    (expectedCount : Option Int) (path : Option String) :
    beforeSearch s (lines.map Text.trim) line skip expectedCount path =
      beforeSearch s lines line skip expectedCount path := by
  rw [beforeSearch, skipClosure_map_trim hopening hclosing, List.length_map, beforeSearch]

/-- A report on trimmed lines is the same. -/
theorem Report.inspect_map_trim (lines : List Line) (line : Int) (skip : Option Bool)
    (expectedCount : Option Int) (path : Option String) :
    inspect s (lines.map Text.trim) line skip expectedCount path =
      inspect s lines line skip expectedCount path := by
  simp only [inspect, beforeSearch_map_trim hopening hclosing, s.locate_map_trim, s.labels_map_trim,
    Block.numbered_map_trim, withBlock_trimmed]

/-- Lines that trim alike give the same outcome of a scan, and the same report. So do texts that
differ by carriage returns before their line feeds. -/
theorem scan_eq_of_trim_eq :
    (∀ lines others, List.Forall₂ (fun a b : Line => Text.trim a = Text.trim b) lines others →
      ∀ line skip, scan s lines line skip = scan s others line skip ∧
        ∀ expectedCount path, Report.inspect s lines line skip expectedCount path =
          Report.inspect s others line skip expectedCount path) ∧
    ∀ text line skip,
      scanText s (String.ofList (Text.withReturns text.toList)) line skip =
        scanText s text line skip := by
  have hmap (lines others : List Line)
      (h : List.Forall₂ (fun a b : Line => Text.trim a = Text.trim b) lines others) :
      lines.map Text.trim = others.map Text.trim := by
    induction h with
    | nil => rfl
    | cons htrim _ ih => rw [List.map_cons, List.map_cons, htrim, ih]
  have hscan (lines others : List Line)
      (h : List.Forall₂ (fun a b : Line => Text.trim a = Text.trim b) lines others) (line : Int)
      (skip : Option Bool) : scan s lines line skip = scan s others line skip := by
    rw [← scan_map_trim hopening hclosing, hmap lines others h, scan_map_trim hopening hclosing]
  refine ⟨fun lines others h line skip => ⟨hscan lines others h line skip, ?_⟩, ?_⟩
  · intro expectedCount path
    rw [← Report.inspect_map_trim hopening hclosing, hmap lines others h,
      Report.inspect_map_trim hopening hclosing]
  · intro text line skip
    rw [scanText, String.toList_ofList, scanText]
    exact hscan _ _ (Text.forall₂_trim_lines_withReturns text.toList) line skip

end Scan

/-- Indented lines that end with carriage returns are scanned as the bare ones, and a text with
carriage returns as the one without. -/
theorem scan_eq_of_trim_eq_returns :
    let s : Settings := {}
    let lines := ["Gen \x7b\r", "  case x \x7d\r", "\tcase a\r", " \r", "case b"].map String.toList
    let others := ["Gen \x7b", "case x \x7d", "case a", "", "case b"].map String.toList
    scan s lines 1 none = scan s others 1 none ∧
      Report.inspect s lines 1 none (some 2) none = Report.inspect s others 1 none (some 2) none ∧
      scanText s "case a\r\ncase b" 0 (some false) = scanText s "case a\ncase b" 0 (some false) := by
  intro s lines others
  have hopening : ∀ c ∈ s.braces.opening, Text.isBlank c = false := by
    rintro c ⟨⟩
    rfl
  have hclosing : ∀ c ∈ s.braces.closing, Text.isBlank c = false := by
    rintro c ⟨⟩
    rfl
  have htrim : List.Forall₂ (fun a b : Line => Text.trim a = Text.trim b) lines others := by
    decide
  have hall := scan_eq_of_trim_eq hopening hclosing
  exact ⟨(hall.1 lines others htrim 1 none).1, (hall.1 lines others htrim 1 none).2 (some 2) none,
    hall.2 "case a\ncase b" 0 (some false)⟩

end EnumLabels
