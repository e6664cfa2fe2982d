/-!
# Splitting text at separators

`splitWhere` cuts a text at every separator character. A text with `n` separators has
`n + 1` pieces, so joining the pieces with their separators gives the text back.

Lines are the pieces between line feeds. No other character ends a line.
-/

namespace EnumLabels.Text

/-- The pieces of a text between the characters that satisfy `isSeparator`. -/
def splitWhere (isSeparator : Char → Bool) : List Char → List (List Char)
  | [] => [[]]
  | c :: rest =>
    if isSeparator c then [] :: splitWhere isSeparator rest
    else
      match splitWhere isSeparator rest with
      | [] => [[c]]
      | piece :: pieces => (c :: piece) :: pieces

/-- The lines of a text, which its line feeds separate. -/
def lines (text : List Char) : List (List Char) := splitWhere (· == '\n') text

/-- The text whose lines are given: they are joined by line feeds. -/
def unlines : List (List Char) → List Char
  | [] => []
  | [line] => line
  | line :: rest => line ++ '\n' :: unlines rest

/-- Whether `marker` occurs in a text. -/
def contains (marker : List Char) : List Char → Bool
  | [] => marker.isEmpty
  | c :: rest => marker.isPrefixOf (c :: rest) || contains marker rest

/-- The part of a text before the first occurrence of `marker`, all of it if there is none. -/
def before (marker : List Char) : List Char → List Char
  | [] => []
  | c :: rest => if marker.isPrefixOf (c :: rest) then [] else c :: before marker rest

end EnumLabels.Text
