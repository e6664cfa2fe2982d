import EnumLabels.Scan.Block

/-!
# Labels of a block

Every line of a block that is no filler line gives one label, the first word after the keyword.
A line without one is an error.
-/

namespace EnumLabels

/-- The label of a line, its first word after the keyword. -/
def Line.label? (markers : Markers) (line : Line) : Option String :=
  (Text.words (line.afterKeyword markers)).head?.map String.ofList

/-- The labels of numbered lines. -/
def labelsOf (markers : Markers) : List (Int × Line) → Except Error (List String)
  | [] => .ok []
  | (number, line) :: rest =>
    if line.isFiller markers then labelsOf markers rest
    else
      match line.label? markers with
      | none => .error (.unnamedCase number (String.ofList (Text.trim line)))
      | some label => (label :: ·) <$> labelsOf markers rest

namespace Block

/-- The lines of a block with their numbers, up to the first number at which there is no line. -/
def numbered (b : Block) (lines : List Line) : List (Int × Line) :=
  match linesFrom? lines b.first with
  | none => []
  | some rest =>
    (rest.take (b.last - b.first + 1).toNat).zipIdx.map fun p => (b.first + p.2, p.1)

/-- Labels that were read from the lines of a block, unless a number of the block has no line. -/
def complete (b : Block) (lines : List Line) (labels : List String) : Except Error (List String) :=
  if (b.last - b.first + 1).toNat = (b.numbered lines).length then .ok labels
  else .error .noSuchLine

/-- The labels of a block. It fails at the first case without a name, or else at the first number
at which there is no line. -/
def labels (markers : Markers) (lines : List Line) (b : Block) : Except Error (List String) :=
  match labelsOf markers (b.numbered lines) with
  | .error e => .error e
  | .ok labels => b.complete lines labels

end Block

end EnumLabels
