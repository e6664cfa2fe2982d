import EnumLabels.Error
import EnumLabels.Scan.Line

/-!
# The block of case lines

A block is a run of lines that starts with a case line and goes on through case lines and
filler lines. It ends before the first line that is neither.

Lines are numbered from zero. A negative number counts from the end, the last line being -1,
and a run of lines that starts at a negative number goes on with line zero after the last.
-/

namespace EnumLabels

/-- The numbers of the first and the last line of a block. -/
structure Block where
  first : Int
  last : Int
  deriving DecidableEq, Repr

namespace Block

/-- Whether a line number lies in the block. -/
def contains (b : Block) (line : Int) : Bool := b.first ≤ line && line ≤ b.last

/-- The number of lines of a block. It must be countable in 63 bits. -/
def length (b : Block) : Except Error Nat :=
  let n := b.last - b.first + 1
  if n < 0 then .error .negativeLength
  else if 0x8000000000000000 ≤ n then .error .lengthTooLarge
  else .ok n.toNat

end Block

/-- The first block at or after a line. -/
def locate? (markers : Markers) (lines : List Line) (cursor : Nat) : Option Block :=
  let rest := lines.drop cursor
  (rest.findIdx? (Line.isCase markers)).map fun k =>
    let more := (rest.drop (k + 1)).takeWhile fun line =>
      line.isCase markers || line.isFiller markers
    ⟨(cursor + k : Nat), (cursor + k + more.length : Nat)⟩

/-- The lines from a line number on. It fails if the number is below that of the first line. -/
def linesFrom? (lines : List Line) (start : Int) : Option (List Line) :=
  if 0 ≤ start then some (lines.drop start.toNat)
  else if -start ≤ lines.length then
    some (lines.drop (lines.length - start.natAbs) ++ lines)
  else none

end EnumLabels
