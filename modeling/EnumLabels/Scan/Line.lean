import EnumLabels.Text.Blank
import EnumLabels.Text.Word

/-!
# Lines of a declaration

A line is read after trimming. It is a filler line when it is blank or starts with the comment
marker, and a case line when it starts with the keyword as a word of its own. A keyword that
ends in a letter or digit must not be followed by another one, and any other keyword may be
followed by anything.
-/

namespace EnumLabels

/-- A line of source text, without the line feed that ends it. -/
abbrev Line := List Char

/-- What tells the lines of a declaration apart. -/
structure Markers where
  /-- The word that opens a case line. -/
  keyword : List Char
  /-- What a comment line starts with. -/
  commentMarker : List Char
  keyword_ne_nil : keyword ≠ []
  commentMarker_ne_nil : commentMarker ≠ []

/-- The options of a scan. -/
structure Options extends Markers where
  /-- Whether a scan steps over a closure first. -/
  skipsClosures : Bool
  openBrace : Char
  closeBrace : Char
  braces_ne : openBrace ≠ closeBrace

/-- The options of a scan that states none. -/
def Options.default : Options where
  keyword := ['c', 'a', 's', 'e']
  commentMarker := ['/', '/']
  skipsClosures := true
  openBrace := '\x7b'
  closeBrace := '\x7d'
  keyword_ne_nil := by decide
  commentMarker_ne_nil := by decide
  braces_ne := by decide

namespace Line

/-- A line without a character that is not blank. -/
def isBlank (line : Line) : Bool := (Text.trim line).isEmpty

/-- A line that is blank or a comment. -/
def isFiller (markers : Markers) (line : Line) : Bool :=
  line.isBlank || markers.commentMarker.isPrefixOf (Text.trim line)

/-- Whether a text that follows the keyword leaves it a word of its own. -/
def leavesWord (keyword rest : List Char) : Bool :=
  match keyword.getLast?, rest with
  | some k, c :: _ => !(Text.isWordChar k && Text.isWordChar c)
  | _, _ => true

/-- A line that starts with a keyword. -/
def opensWith (keyword : List Char) (line : Line) : Bool :=
  keyword.isPrefixOf (Text.trim line) &&
    leavesWord keyword ((Text.trim line).drop keyword.length)

/-- A line that declares a case. -/
def isCase (markers : Markers) (line : Line) : Bool := line.opensWith markers.keyword

/-- The trimmed line without the keyword's length of characters at its start. -/
def afterKeyword (markers : Markers) (line : Line) : List Char :=
  (Text.trim line).drop markers.keyword.length

end Line

end EnumLabels
