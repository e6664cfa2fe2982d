import EnumLabels.Data.Moment

/-!
# Faults of texts that denote data

A text may break the grammar of its format, or it may keep to the grammar and still denote no
value, as a date that no calendar has.
-/

namespace EnumLabels

/-- Why a text of the right form denotes no value. -/
inductive ValueFault where
  /-- A date or a time does not exist. -/
  | moment (fault : MomentFault)
  /-- A number in the given base has no digits. -/
  | noDigits (base : Nat)
  /-- An escape denotes a number above all code points. -/
  | notCodePoint
  /-- An escape denotes a number of more than 31 bits. -/
  | codePointTooLarge
  /-- A place of a sexagesimal number is worth more than any float. -/
  | placeTooLarge
  deriving DecidableEq, Repr

/-- The words for a value that does not exist. -/
def ValueFault.message : ValueFault → String
  | moment fault => fault.message
  | noDigits base => "invalid literal for int() with base " ++ toString base ++ ": ''"
  | notCodePoint => "chr() arg not in range(0x110000)"
  | codePointTooLarge => "the code point is too large"
  | placeTooLarge => "the number is too large"

/-- Why a text denotes no data. -/
inductive ReadFault where
  /-- The text breaks the grammar of its format. -/
  | malformed
  /-- A part of the text denotes no value. -/
  | value (fault : ValueFault)
  deriving DecidableEq, Repr

end EnumLabels
