import EnumLabels.Settings.Use

/-!
# Scanning for labels

A scan steps over a closure if asked to, finds the block and reads its labels. Lines without a
block give no labels.
-/

namespace EnumLabels

/-- Whether a scan steps over a closure. Without `skip` the settings say so. -/
def skipsClosure (s : Settings) (skip : Option Bool) : Bool := skip.getD s.skipClosures.isTrue

/-- The number of the line at which a scan looks for a block. -/
def scanStart (s : Settings) (lines : List Line) (line : Int) (skip : Option Bool) : Nat :=
  if skipsClosure s skip then skipClosure s.braces lines line else line.toNat

/-- The labels found from a call site. -/
def scan (s : Settings) (lines : List Line) (line : Int) (skip : Option Bool) :
    Except Error (List String) :=
  if line < 0 then .error (.negativeLine line)
  else
    match s.locate lines (scanStart s lines line skip) with
    | .error e => .error e
    | .ok none => .ok []
    | .ok (some block) => s.labels lines block

/-- The labels found in a text from a call site. -/
def scanText (s : Settings) (text : String) (line : Int) (skip : Option Bool) :
    Except Error (List String) :=
  scan s (Text.lines text.toList) line skip

end EnumLabels
