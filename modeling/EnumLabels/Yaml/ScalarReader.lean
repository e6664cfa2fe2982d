import EnumLabels.Yaml.Text

/-!
# Reading scalars

Plain text ends before punctuation, before a comment, or at a line that is indented less than
its block. Within plain and quoted text a line end with the blanks around it counts as one
blank, and further line ends count as themselves. Block text keeps its lines or folds them.
-/

namespace EnumLabels.Yaml

/-- The punctuation of flow collections. -/
def isFlowPunctuation (c : Char) : Bool := ",[]\x7b\x7d".toList.contains c

/-- Text for a line end and the further line ends after it. -/
def foldedText (first : Char) (more : List Char) : List Char :=
  if first ≠ '\n' then first :: more else if more.isEmpty then [' '] else more

section Plain

/-- Whether plain text ends before a character, given what follows it. -/
def endsPlain (flow : Bool) (c : Char) (rest : List Char) : Bool :=
  isGap c || isBreak c ||
    (c == ':' && (atSpace rest || (flow && (rest.head?.map isFlowPunctuation).getD false))) ||
    (flow && (isFlowPunctuation c || c == '?'))

/-- The plain text up to the next blank, line end or punctuation, and what follows it. -/
def plainChunk (flow : Bool) : List Char → List Char × List Char
  | [] => ([], [])
  | c :: rest =>
    if endsPlain flow c rest then ([], c :: rest)
    else
      let (text, after) := plainChunk flow rest
      (c :: text, after)

/-- The line ends within plain text after its first one. There are none to count if a document
mark follows one of them. -/
def plainBreaks : List Char → Option (List Char) × List Char
  | [] => (some [], [])
  | c :: rest =>
    if c = ' ' then plainBreaks rest
    else if isBreak c then
      if isDocumentMark rest then (none, rest)
      else
        let (breaks, after) := plainBreaks rest
        (breaks.map (c :: ·), after)
    else (some [], c :: rest)

/-- What lies between two chunks of plain text. -/
structure PlainGap where
  /-- The text it counts as, empty if plain text ends here. -/
  text : List Char
  /-- Whether it holds a line end. -/
  broken : Bool
  rest : List Char

/-- The blanks and line ends at the start of a text, as they count within plain text. -/
def plainGap (text : List Char) : PlainGap :=
  let blanks := text.takeWhile (· == ' ')
  match text.dropWhile (· == ' ') with
  | [] => ⟨blanks, false, []⟩
  | c :: rest =>
    if isBreak c then
      if isDocumentMark rest then ⟨[], true, rest⟩
      else
        match plainBreaks rest with
        | (some more, after) => ⟨foldedText c more, true, after⟩
        | (none, after) => ⟨[], true, after⟩
    else ⟨blanks, false, c :: rest⟩

/-- Nothing is lost or added by cutting plain text into a chunk and its rest. -/
theorem plainChunk_append (flow : Bool) (text : List Char) :
    (plainChunk flow text).1 ++ (plainChunk flow text).2 = text := by
  fun_induction plainChunk flow text <;> simp_all

/-- What follows a chunk is shorter than what the chunk starts. -/
theorem length_plainChunk_lt {flow : Bool} {text chunk after : List Char} {c : Char}
    (h : plainChunk flow text = (c :: chunk, after)) : after.length < text.length := by
  have happ := congrArg List.length (plainChunk_append flow text)
  simp only [h, List.length_append, List.length_cons] at happ
  omega

/-- What follows the line ends is no longer than what they start. -/
theorem length_plainBreaks_le (text : List Char) :
    (plainBreaks text).2.length ≤ text.length := by
  fun_induction plainBreaks text <;> simp_all <;> omega

/-- What follows a gap is no longer than what the gap starts. -/
theorem length_plainGap_le (text : List Char) : (plainGap text).rest.length ≤ text.length := by
  have hd : (text.dropWhile (· == ' ')).length ≤ text.length :=
    (List.dropWhile_suffix _).length_le
  unfold plainGap
  split
  · simp
  · next c rest h =>
    rw [h, List.length_cons] at hd
    have hb := length_plainBreaks_le rest
    split
    · split
      · simp; omega
      · split <;> simp_all <;> omega
    · simpa using hd

/-- Plain text that has been read. -/
structure PlainText where
  text : List Char
  cursor : Cursor
  /-- Whether a line end came after the last chunk. -/
  broken : Bool

/-- Read plain text. In a block it ends at a column below `indent`. `gap` is the text between it
and what has been read before, and `broken` tells whether a line end lies there. -/
def readPlain (flow : Bool) (indent : Nat) (cursor : Cursor) (gap : List Char) (broken : Bool) :
    PlainText :=
  match h : plainChunk flow cursor.rest with
  | ([], _) => ⟨[], cursor, broken⟩
  | (c :: chunk, after) =>
    if cursor.rest.head? = some '#' then ⟨[], cursor, broken⟩
    else
      have := length_plainChunk_lt h
      have := length_plainGap_le after
      let found := plainGap after
      let next := (cursor.pass (c :: chunk) after).moveTo found.rest
      if found.text.isEmpty || found.rest.head? == some '#' ||
          (!flow && next.column < indent) then
        ⟨gap ++ c :: chunk, next, found.broken⟩
      else
        let more := readPlain flow indent next found.text found.broken
        ⟨gap ++ c :: chunk ++ more.text, more.cursor, more.broken⟩
termination_by cursor.rest.length
decreasing_by
  show (plainGap after).rest.length < cursor.rest.length
  omega

end Plain

section Quoted

/-- What lies between two characters of quoted text. -/
inductive QuotedGap where
  | blanks (text : List Char)
  /-- A line end, none if a backslash hides it, and the further line ends after it. -/
  | breaks (first : Option Char) (more : List Char)

namespace QuotedGap

/-- Nothing. -/
def none : QuotedGap := blanks []

/-- One more blank, which does not count behind a line end. -/
def addBlank (c : Char) : QuotedGap → QuotedGap
  | blanks text => blanks (text ++ [c])
  | gap => gap

/-- One more line end, before which blanks do not count. -/
def addBreak (c : Char) : QuotedGap → QuotedGap
  | blanks _ => breaks (some c) []
  | breaks first more => breaks first (more ++ [c])

/-- The text that a gap counts as. -/
def text : QuotedGap → List Char
  | blanks text => text
  | breaks (some first) more => foldedText first more
  | breaks Option.none more => more

end QuotedGap

/-- The characters that letters behind a backslash denote. -/
def readEscape? (c : Char) : Option Char :=
  if c = '\t' then some '\t'
  else if c = ' ' then some ' '
  else if c = '/' then some '/'
  else (shortEscapes.find? fun e => e.2 == c).map (·.1)

/-- The code point that hexadecimal digits denote, which may be a surrogate. -/
def hexPoint (digits : List Char) : Except ReadFault Nat :=
  match Text.readHex? digits.length digits with
  | none => .error .malformed
  | some (n, _) =>
    if 0x80000000 ≤ n then .error (.value .codePointTooLarge)
    else if 0x10FFFF < n then .error (.value .notCodePoint)
    else .ok n

/-- Put what lies between two code points, and the second one, before code points that have been
read. -/
def prependPoints (gap : QuotedGap) (next : Option Nat)
    (found : Except ReadFault (List Nat × List Char)) : Except ReadFault (List Nat × List Char) :=
  found.map fun (ps, rest) => (gap.text.map Char.toNat ++ next.toList ++ ps, rest)

/-- Read text between double quotes after its opening quote. -/
def readDouble (gap : QuotedGap) : List Char → Except ReadFault (List Nat × List Char)
  | [] => .error .malformed
  | c :: rest =>
    if isGap c then readDouble (gap.addBlank c) rest
    else if isBreak c then
      if isDocumentMark rest then .error .malformed else readDouble (gap.addBreak c) rest
    else if c = '"' then .ok (gap.text.map Char.toNat, rest)
    else if c = '\\' then
      match rest with
      | [] => .error .malformed
      | 'x' :: a :: b :: after =>
        match hexPoint [a, b] with
        | .ok n => prependPoints gap n (readDouble .none after)
        | .error fault => .error fault
      | 'u' :: a :: b :: c :: d :: after =>
        match hexPoint [a, b, c, d] with
        | .ok n => prependPoints gap n (readDouble .none after)
        | .error fault => .error fault
      | 'U' :: a :: b :: c :: d :: e :: f :: g :: h :: after =>
        match hexPoint [a, b, c, d, e, f, g, h] with
        | .ok n => prependPoints gap n (readDouble .none after)
        | .error fault => .error fault
      | e :: after =>
        match readEscape? e with
        | some d => prependPoints gap d.toNat (readDouble .none after)
        | none =>
          if isBreak e && !isDocumentMark after then
            prependPoints gap none (readDouble (.breaks none []) after)
          else .error .malformed
    else prependPoints gap c.toNat (readDouble .none rest)

/-- Put characters before a text that has been read. -/
def prepend (text : List Char) (found : Option (List Char × List Char)) :
    Option (List Char × List Char) :=
  found.map fun (t, rest) => (text ++ t, rest)

/-- Read text between apostrophes after its opening apostrophe. -/
def readSingle? (gap : QuotedGap) : List Char → Option (List Char × List Char)
  | [] => none
  | c :: rest =>
    if isGap c then readSingle? (gap.addBlank c) rest
    else if isBreak c then
      if isDocumentMark rest then none else readSingle? (gap.addBreak c) rest
    else if c = '\'' then
      match rest with
      | '\'' :: after => prepend (gap.text ++ ['\'']) (readSingle? .none after)
      | _ => some (gap.text, rest)
    else prepend (gap.text ++ [c]) (readSingle? .none rest)

end Quoted

section Block

/-- What becomes of the line ends at the end of block text. -/
inductive Chomping where
  | strip
  | clip
  | keep
  deriving DecidableEq, Repr

/-- The header of block text: its chomping and its indentation beyond that of its parent. -/
structure BlockHeader where
  chomping : Chomping
  increment : Option Nat

/-- Read a chomping indicator. -/
def readChomping : List Char → Option Chomping × List Char
  | '+' :: rest => (some .keep, rest)
  | '-' :: rest => (some .strip, rest)
  | text => (none, text)

/-- Read an indentation indicator. Zero is none. -/
def readIncrement? : List Char → Option (Option Nat × List Char)
  | [] => some (none, [])
  | c :: rest =>
    if c.isDigit then if c = '0' then none else some (some (c.toNat - 48), rest)
    else some (none, c :: rest)

/-- Read the indicators of a header, which may come in either order. -/
def readIndicators? (text : List Char) : Option (BlockHeader × List Char) :=
  match readChomping text with
  | (some chomping, rest) => do
    let (increment, rest) ← readIncrement? rest
    some (⟨chomping, increment⟩, rest)
  | (none, rest) => do
    match ← readIncrement? rest with
    | (some n, rest) =>
      let (chomping, rest) := readChomping rest
      some (⟨chomping.getD .clip, some n⟩, rest)
    | (none, rest) => some (⟨.clip, none⟩, rest)

/-- Read a header and the line end after it. Blanks and a comment may come between. -/
def readHeader? (text : List Char) : Option (BlockHeader × List Char) := do
  let (header, rest) ← readIndicators? text
  match rest with
  | [] => some (header, [])
  | c :: _ =>
    if c ≠ ' ' ∧ !isBreak c then none
    else
      let rest := rest.dropWhile (· == ' ')
      let rest := if rest.head? = some '#' then rest.dropWhile fun c => !isBreak c else rest
      match rest with
      | [] => some (header, [])
      | c :: rest => if isBreak c then some (header, rest) else none

/-- Line ends before a line of block text. -/
structure BlockBreaks where
  breaks : List Char
  /-- The greatest column met. -/
  widest : Nat
  /-- The column at which the line goes on. -/
  column : Nat
  rest : List Char

/-- The line ends at the start of a text, and the blanks up to the column `indent`. -/
def blockBreaks (indent column : Nat) : List Char → BlockBreaks
  | [] => ⟨[], 0, column, []⟩
  | c :: rest =>
    if c = ' ' ∧ column < indent then blockBreaks indent (column + 1) rest
    else if isBreak c then
      let found := blockBreaks indent 0 rest
      { found with breaks := c :: found.breaks }
    else ⟨[], 0, column, c :: rest⟩

/-- The line ends and blanks at the start of a text. -/
def blockIndentation (widest column : Nat) : List Char → BlockBreaks
  | [] => ⟨[], widest, column, []⟩
  | c :: rest =>
    if c = ' ' then blockIndentation (max widest (column + 1)) (column + 1) rest
    else if isBreak c then
      let found := blockIndentation widest 0 rest
      { found with breaks := c :: found.breaks }
    else ⟨[], widest, column, c :: rest⟩

/-- What follows line ends is no longer than what they start. -/
theorem length_blockBreaks_le (indent column : Nat) (text : List Char) :
    (blockBreaks indent column text).rest.length ≤ text.length := by
  fun_induction blockBreaks indent column text <;> grind

/-- The lines of block text with the line end after the last of them and the further ones. -/
structure BlockText where
  text : List Char
  last : List Char
  breaks : List Char
  rest : List Char

/-- What follows a line is shorter than what the line starts. -/
theorem length_dropWhile_lt {p : Char → Bool} {text rest : List Char} {c : Char}
    (h : text.dropWhile p = c :: rest) : rest.length < text.length := by
  have hd := (List.dropWhile_suffix p (l := text)).length_le
  rw [h, List.length_cons] at hd
  omega

/-- Read the lines of block text. A line end between two lines that do not start with a blank
counts as a blank in folded text, unless further line ends follow it. -/
def readBlockLines (folds : Bool) (indent : Nat) (found : BlockBreaks) : BlockText :=
  if found.column = indent ∧ found.rest ≠ [] then
    let line := found.rest.takeWhile fun c => !isBreak c
    match h : found.rest.dropWhile fun c => !isBreak c with
    | [] => ⟨found.breaks ++ line, [], [], []⟩
    | c :: rest =>
      have := length_dropWhile_lt h
      have := length_blockBreaks_le indent 0 rest
      let next := blockBreaks indent 0 rest
      let isGapAhead (text : List Char) : Bool := (text.head?.map isGap).getD false
      if next.column = indent ∧ next.rest ≠ [] then
        let joint :=
          if folds ∧ c = '\n' ∧ !isGapAhead found.rest ∧ !isGapAhead next.rest then
            if next.breaks.isEmpty then [' '] else []
          else [c]
        let more := readBlockLines folds indent next
        { more with text := found.breaks ++ line ++ joint ++ more.text }
      else ⟨found.breaks ++ line, [c], next.breaks, next.rest⟩
  else ⟨[], [], found.breaks, found.rest⟩
termination_by found.rest.length
decreasing_by
  show (blockBreaks indent 0 rest).rest.length < found.rest.length
  omega

/-- Read block text after its indicator. Its lines are indented at least by `least`. -/
def readBlock? (folds : Bool) (least : Nat) (text : List Char) :
    Option (List Char × List Char) := do
  let (header, rest) ← readHeader? text
  let found :=
    match header.increment with
    | some n => blockBreaks (least + n - 1) 0 rest
    | none => blockIndentation 0 0 rest
  let indent :=
    match header.increment with
    | some n => least + n - 1
    | none => max least found.widest
  let lines := readBlockLines folds indent found
  let ending :=
    match header.chomping with
    | .strip => []
    | .clip => lines.last
    | .keep => lines.last ++ lines.breaks
  some (lines.text ++ ending, lines.rest)

end Block

end EnumLabels.Yaml
