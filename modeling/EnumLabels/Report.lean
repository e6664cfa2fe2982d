import EnumLabels.Scan

/-!
# Reports on a scan

A report records what each stage of a scan saw and warns of labels that are likely wrong: a
closure that never closes, no case lines, lines that declare several cases, labels that occur
twice and a number of labels other than expected. A warning is recorded once.

A line declares several cases when a comma is left after removing quoted values, the comment at
its end and the innermost groups in round brackets.
-/

namespace EnumLabels

namespace Line

/-- The text after a quoted value, given the text after its opening quote. There is none if the
quote is never closed. A backslash protects the next character, which must be on the same
line. -/
def afterQuoted? (quote : Char) : List Char → Option (List Char)
  | [] => none
  | [c] => if c = quote then some [] else none
  | c :: d :: rest =>
    if c = quote then some (d :: rest)
    else if c = '\\' then if d = '\n' then none else afterQuoted? quote rest
    else afterQuoted? quote (d :: rest)

/-- What follows a quoted value is shorter than what follows its opening quote. -/
theorem length_afterQuoted? {quote : Char} {text rest : List Char}
    (h : afterQuoted? quote text = some rest) : rest.length < text.length := by
  fun_induction afterQuoted? quote text <;> grind

/-- The text without its quoted values. A quote that is never closed stays. -/
def withoutQuoted : List Char → List Char
  | [] => []
  | c :: rest =>
    if c = '\'' ∨ c = '"' then
      match h : afterQuoted? c rest with
      | some after =>
        have := length_afterQuoted? h
        withoutQuoted after
      | none => c :: withoutQuoted rest
    else c :: withoutQuoted rest
termination_by text => text.length

/-- The text after a group in round brackets that holds no other bracket, given the text after
its opening bracket. -/
def afterGroup? : List Char → Option (List Char)
  | [] => none
  | c :: rest => if c = ')' then some rest else if c = '(' then none else afterGroup? rest

/-- What follows a group is shorter than what follows its opening bracket. -/
theorem length_afterGroup? {text rest : List Char} (h : afterGroup? text = some rest) :
    rest.length < text.length := by
  fun_induction afterGroup? text <;> grind

/-- The text without the groups in round brackets that hold no other bracket. -/
def withoutGroups : List Char → List Char
  | [] => []
  | c :: rest =>
    if c = '(' then
      match h : afterGroup? rest with
      | some after =>
        have := length_afterGroup? h
        withoutGroups after
      | none => c :: withoutGroups rest
    else c :: withoutGroups rest
termination_by text => text.length

/-- A line that declares several cases. -/
def isMultiCase (markers : Markers) (line : Line) : Bool :=
  (withoutGroups (Text.before markers.commentMarker (withoutQuoted (Text.trim line)))).contains ','

end Line

/-- What a scan saw. -/
structure Report where
  path : Option String := none
  line : Int
  totalLines : Nat := 0
  cursor : Int := 0
  skippedClosure : Bool := false
  block : Option Block := none
  labels : List String := []
  /-- The lines of the block that give no label. -/
  fillerLines : List Int := []
  /-- The lines of the block that declare several cases. -/
  multiCaseLines : List Int := []
  duplicateLabels : List String := []
  expectedCount : Option Int := none
  warnings : List String := []

namespace Report

/-- Whether the number of labels is the expected one, if one is expected. -/
def countMatches (r : Report) : Option Bool :=
  r.expectedCount.map fun n => n == (r.labels.length : Int)

/-- Record a warning unless it is recorded already. -/
def warn (r : Report) (warning : String) : Report :=
  if r.warnings.contains warning then r else { r with warnings := r.warnings ++ [warning] }

/-- Record a warning if a condition holds. -/
def warnIf (r : Report) (condition : Bool) (warning : String) : Report :=
  if condition then r.warn warning else r

end Report

/-- The labels that occur at least twice, each once, in the order of their characters. -/
def duplicates (labels : List String) : List String :=
  (labels.eraseDups.filter fun label => 1 < labels.count label).mergeSort fun a b =>
    decide (a ≤ b)

/-- The words of a list of line numbers. -/
def lineNumbers (numbers : List Int) : String := Data.separated (numbers.map toString)

namespace Report

/-- Warn of a closure that never closes and of a missing block. -/
def warnOfBlock (r : Report) (s : Settings) : Report :=
  (r.warnIf (r.skippedClosure && r.totalLines ≤ r.cursor)
      ("Closure starting near line " ++ toString r.line ++ " never closes")).warnIf
    r.block.isNone
    ("No '" ++ s.keyword.text.toString ++ "' lines found from line " ++ toString r.cursor)

/-- Warn of labels that are likely wrong. -/
def warnOfLabels (r : Report) : Report :=
  ((r.warnIf (!r.multiCaseLines.isEmpty)
      ("Lines declaring several cases (only the first is labelled): " ++
        lineNumbers r.multiCaseLines)).warnIf (!r.duplicateLabels.isEmpty)
    ("Duplicate labels: " ++ Data.separated r.duplicateLabels)).warnIf
    (r.countMatches == some false)
    ("Label count mismatch: " ++ toString r.labels.length ++ " label(s) for " ++
      toString (r.expectedCount.getD 0) ++ " case(s)")

/-- The numbers of those numbered lines that satisfy a condition. -/
def numbersWhere (p : Line → Bool) (numbered : List (Int × Line)) : List Int :=
  (numbered.filter fun n => p n.2).map (·.1)

/-- The report with what its block holds. -/
def withBlock (r : Report) (markers : Markers) (numbered : List (Int × Line))
    (labels : List String) : Report :=
  let isMulti := fun l : Line => !l.isFiller markers && l.isMultiCase markers
  { r with
    labels
    fillerLines := numbersWhere (Line.isFiller markers) numbered
    multiCaseLines := numbersWhere isMulti numbered
    duplicateLabels := duplicates labels }

/-- What a report holds before a block is searched: where the search begins, and whether a closure
was stepped over on the way there. -/
def beforeSearch (s : Settings) (lines : List Line) (line : Int) (skip : Option Bool)
    (expectedCount : Option Int) (path : Option String) : Report :=
  let start : Report := { path, line, expectedCount, totalLines := lines.length }
  if skip.getD s.skipClosures.isTrue then
    { start with cursor := (skipClosure s.braces lines line : Nat), skippedClosure := true }
  else { start with cursor := line }

/-- Report on a scan of lines from a call site. -/
def inspect (s : Settings) (lines : List Line) (line : Int) (skip : Option Bool)
    (expectedCount : Option Int) (path : Option String) : Except Error Report :=
  if line < 0 then .error (.negativeLine line)
  else
    let start := beforeSearch s lines line skip expectedCount path
    match s.locate lines start.cursor.toNat with
    | .error e => .error e
    | .ok none => .ok (start.warnOfBlock s).warnOfLabels
    | .ok (some b) => do
      let labels ← s.labels lines b
      let markers ← s.markers
      let found := { start with block := some b }.withBlock markers (b.numbered lines) labels
      return (found.warnOfBlock s).warnOfLabels

/-- The text that presents a report, a line for each finding. -/
def present (r : Report) : List String :=
  let list (items : List String) : String := "[" ++ Data.separated items ++ "]"
  [ "  File:            " ++ r.path.getD "None",
    "  Call-site line:  " ++ toString r.line,
    "  Closure skipped: " ++ (if r.skippedClosure then "YES" else "NO") ++ " (cursor " ++
      toString r.cursor ++ ")" ] ++
    (match r.block with
    | none => []
    | some b =>
      ["  Case block:      lines " ++ toString b.first ++ "-" ++ toString b.last]) ++
    ["  Labels:          " ++ list (r.labels.map quote)] ++
    (if r.fillerLines.isEmpty then []
    else ["  Ignored lines:   " ++ list (r.fillerLines.map toString)]) ++
    (if r.warnings.isEmpty then []
    else
      "  Warnings:" ::
        r.warnings.zipIdx.map fun w => "    " ++ toString (w.2 + 1) ++ ". " ++ w.1)

end Report

end EnumLabels
