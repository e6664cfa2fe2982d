import EnumLabels.Scan.Labels
import EnumLabels.Settings

/-!
# Settings in use

A keyword or a comment marker that is no text is an error, but only where a scan has to look at
it. The keyword is needed for every line that a search for the block reads, and its length for
every label. The comment marker is needed for a line that is neither blank nor, in the search, a
case line.

Settings whose two markers are texts are used as those markers.
-/

namespace EnumLabels.Settings

/-- Whether a line is blank or a comment. -/
def isFiller (s : Settings) (line : Line) : Except Error Bool :=
  if line.isBlank then .ok true
  else (characters s.commentMarker).map fun marker => marker.isPrefixOf (Text.trim line)

/-- Whether a line declares a case. -/
def isCase (s : Settings) (line : Line) : Except Error Bool :=
  (characters s.keyword).map fun keyword => line.opensWith keyword

/-- Whether a block goes on with a line. A case line is not asked whether it is a filler line. -/
def continues (s : Settings) (line : Line) : Except Error Bool := do
  if ← s.isCase line then return true
  s.isFiller line

/-- The number of lines at the start of some lines with which a block goes on. -/
def countContinued (s : Settings) : List Line → Except Error Nat
  | [] => .ok 0
  | line :: rest => do
    if ← s.continues line then return (← s.countContinued rest) + 1
    else return 0

/-- The first block of some lines, of which the first one has the given number. -/
def firstBlock (s : Settings) (number : Int) : List Line → Except Error (Option Block)
  | [] => .ok none
  | line :: rest => do
    if ← s.isCase line then return some ⟨number, number + (← s.countContinued rest)⟩
    else s.firstBlock (number + 1) rest

/-- The first block at or after a line. -/
def locate (s : Settings) (lines : List Line) (cursor : Nat) : Except Error (Option Block) :=
  match s.markers with
  | .ok markers => .ok (locate? markers lines cursor)
  | .error _ => s.firstBlock cursor (lines.drop cursor)

/-- The first block at or after a line whose number may be negative. -/
def locateFrom (s : Settings) (lines : List Line) (cursor : Int) : Except Error (Option Block) :=
  match linesFrom? lines cursor with
  | none => .error .noSuchLine
  | some rest =>
    (s.locate rest 0).map fun found =>
      found.map fun b => ⟨cursor + b.first, cursor + b.last⟩

/-- The label of a numbered line, none for a filler line. -/
def lineLabel (s : Settings) (number : Int) (line : Line) : Except Error (Option String) := do
  if ← s.isFiller line then return none
  match s.keyword.length? with
  | none => throw .wrongType
  | some n =>
    match Text.words ((Text.trim line).drop n) with
    | [] => throw (.unnamedCase number (String.ofList (Text.trim line)))
    | word :: _ => return some (String.ofList word)

/-- The labels of a block. -/
def labels (s : Settings) (lines : List Line) (b : Block) : Except Error (List String) :=
  match s.markers with
  | .ok markers => b.labels markers lines
  | .error _ =>
    match (b.numbered lines).mapM fun n => s.lineLabel n.1 n.2 with
    | .error e => .error e
    | .ok found => b.complete lines (found.filterMap id)

end EnumLabels.Settings
