import EnumLabels.Text.Split

/-!
# Words

A word is a maximal run of ASCII letters and digits. Every other character, the
underscore and all non-ASCII letters included, separates words.
-/

namespace EnumLabels.Text

/-- An ASCII letter or digit. -/
def isWordChar (c : Char) : Bool := c.isAlphanum

/-- The words of a text, from left to right. -/
def words (text : List Char) : List (List Char) :=
  (splitWhere (fun c => !isWordChar c) text).filter fun piece => !piece.isEmpty

end EnumLabels.Text
