import EnumLabels.Directory
import EnumLabels.Report

/-!
# Scanning source files

A source file is read as UTF-8 and split at its line feeds. A scan from a call site first checks
the position, then reads the file. A file that cannot be read may count as a source without
labels, and a warning then says so.
-/

namespace EnumLabels

/-- The file, line and column of a call. The scanner does not look at the column. -/
structure Position where
  path : String
  line : Int
  column : Int
  deriving DecidableEq

namespace Position

/-- The position, if its line and column are not negative. -/
def check (p : Position) : Except Error Position :=
  if p.line < 0 then .error (.negativeLine p.line)
  else if p.column < 0 then .error (.negativeColumn p.column)
  else .ok p

end Position

/-- The text of a file. -/
def Directory.readText (d : Directory) (path : String) : Except FileFault (List Char) :=
  match d.read path with
  | .error fault => .error fault
  | .ok bytes =>
    match Text.Utf8.decode bytes with
    | .error fault => .error (.notUtf8 fault)
    | .ok text => .ok text

/-- The lines of a source file. -/
def loadLines (d : Directory) (path : String) : Except Error (List Line) :=
  if Directory.hasNul path then .error .nulInPath
  else
    match d.readText path with
    | .error fault => .error (.unreadable path fault.reason)
    | .ok text => .ok (Text.lines text)

/-- The labels that a scan found and the warnings it gave. -/
structure Found where
  labels : List String
  warnings : List String
  deriving DecidableEq

/-- The labels found from a call site in a source file. With `missingOk` an unreadable file has
no labels. -/
def scanFile (d : Directory) (s : Settings) (position : Position) (skip : Option Bool)
    (missingOk : Bool) : Except Error Found := do
  let p ← position.check
  match loadLines d p.path with
  | .error (.unreadable path reason) =>
    if missingOk then
      return ⟨[], [(Error.unreadable path reason).words ++ "; no labels extracted"]⟩
    else throw (.unreadable path reason)
  | .error e => throw e
  | .ok lines => return ⟨← scan s lines p.line skip, []⟩

/-- Report on a scan of a source file from a call site. -/
def inspectFile (d : Directory) (s : Settings) (path : String) (line : Int)
    (skip : Option Bool) (expectedCount : Option Int) : Except Error Report := do
  let lines ← loadLines d path
  Report.inspect s lines line skip expectedCount (some path)

end EnumLabels
