import EnumLabels.Scan.Line

/-!
# Stepping over a closure

From one line before the call site on, every open brace raises a depth by one and every close
brace lowers it by one, wherever they stand. The closure ends on the line where the depth first
returns to zero after an open brace.
-/

namespace EnumLabels

/-- The characters that open and close a closure. There may be none. -/
structure Braces where
  opening : Option Char
  closing : Option Char
  deriving DecidableEq, Repr

/-- The braces of a scan with the given options. -/
def Options.braces (o : Options) : Braces := ⟨some o.openBrace, some o.closeBrace⟩

/-- What has been read of a closure: the depth, and whether a brace has opened. -/
structure Nesting where
  depth : Int
  opened : Bool
  deriving DecidableEq, Repr

namespace Nesting

/-- Nothing has been read. -/
def start : Nesting := ⟨0, false⟩

/-- The nesting after one more character. -/
def next (braces : Braces) (n : Nesting) (c : Char) : Nesting :=
  if braces.opening = some c then ⟨n.depth + 1, true⟩
  else if braces.closing = some c then ⟨n.depth - 1, n.opened⟩
  else n

/-- A closure has opened and is closed again. -/
def isClosed (n : Nesting) : Bool := n.opened && n.depth == 0

/-- The nesting after a line, or none if the closure is closed within the line. -/
def readLine? (braces : Braces) (n : Nesting) : Line → Option Nesting
  | [] => some n
  | c :: rest =>
    let n' := n.next braces c
    if n'.isClosed then none else n'.readLine? braces rest

end Nesting

/-- The number of the line that closes the closure. The first of the given lines has the number
`index`, and `n` has been read before it. -/
def closingLine? (braces : Braces) (n : Nesting) (index : Nat) : List Line → Option Nat
  | [] => none
  | line :: lines =>
    match n.readLine? braces line with
    | none => some index
    | some n' => closingLine? braces n' (index + 1) lines

/-- The number of the line that closes the closure near a call site, or the number of lines if
none does. Call sites count lines from one, so reading starts at the line before. -/
def skipClosure (braces : Braces) (lines : List Line) (line : Int) : Nat :=
  let start := (line - 1).toNat
  (closingLine? braces Nesting.start start (lines.drop start)).getD lines.length

end EnumLabels
