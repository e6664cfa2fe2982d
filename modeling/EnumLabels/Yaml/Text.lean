import EnumLabels.Yaml.Scalar

/-!
# Text as YAML reads it

A YAML text holds printable characters only and may start with a byte-order mark. The carriage
return, alone or before a line feed, and the next-line control end lines as the line feed does,
and are read as line feeds. The line and paragraph separators end lines too and stay themselves.

A cursor is a place in a text with the number of characters, of line ends, and of characters
since the last line end that lie before it.
-/

namespace EnumLabels.Yaml

/-- A character that a YAML text may hold. -/
def isAllowed (c : Char) : Bool :=
  let n := c.toNat
  n == 0x09 || n == 0x0A || n == 0x0D || (0x20 ≤ n && n ≤ 0x7E) || n == 0x85 ||
    (0xA0 ≤ n && n ≤ 0xD7FF) || (0xE000 ≤ n && n ≤ 0xFFFD) || 0x10000 ≤ n

/-- The byte-order mark. It takes no column. -/
def byteOrderMark : Char := '\ufeff'

/-- The text with line feeds for the other controls that end lines. -/
def normalizeBreaks : List Char → List Char
  | [] => []
  | c :: rest =>
    if c = '\r' then
      if rest.head? = some '\n' then normalizeBreaks rest else '\n' :: normalizeBreaks rest
    else if c = '\x85' then '\n' :: normalizeBreaks rest
    else c :: normalizeBreaks rest

/-- The text that is read, if it holds allowed characters only. -/
def prepare? (text : List Char) : Option (List Char) :=
  if text.all isAllowed then
    match text with
    | [] => some []
    | c :: rest => some (normalizeBreaks (if c = byteOrderMark then rest else text))
  else none

/-- A blank within a line. -/
def isGap (c : Char) : Bool := c == ' ' || c == '\t'

/-- Whether a text is empty or starts with a blank or a line end. -/
def atSpace : List Char → Bool
  | [] => true
  | c :: _ => isGap c || isBreak c

/-- Whether a line starts with a document mark: three dashes or points and then a blank, a line
end or nothing. -/
def isDocumentMark (text : List Char) : Bool :=
  (text.take 3 == ['-', '-', '-'] || text.take 3 == ['.', '.', '.']) && atSpace (text.drop 3)

/-- A place in a text. -/
structure Cursor where
  rest : List Char
  index : Nat
  line : Nat
  column : Nat

namespace Cursor

/-- The start of a text. -/
def start (text : List Char) : Cursor := ⟨text, 0, 0, 0⟩

/-- The column after some characters. -/
def columnAfter (column : Nat) : List Char → Nat
  | [] => column
  | c :: rest =>
    if isBreak c then columnAfter 0 rest
    else if c = byteOrderMark then columnAfter column rest
    else columnAfter (column + 1) rest

/-- The place behind the characters of `passed`, where `rest` is left of the text. -/
def pass (c : Cursor) (passed rest : List Char) : Cursor where
  rest
  index := c.index + passed.length
  line := c.line + passed.countP isBreak
  column := columnAfter c.column passed

/-- The place at which `rest` is left of the text. -/
def moveTo (c : Cursor) (rest : List Char) : Cursor :=
  c.pass (c.rest.take (c.rest.length - rest.length)) rest

/-- The place some characters further on. -/
def advance (c : Cursor) (count : Nat) : Cursor :=
  c.pass (c.rest.take count) (c.rest.drop count)

end Cursor

end EnumLabels.Yaml
