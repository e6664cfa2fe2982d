import EnumLabels.Text.Hex
import EnumLabels.Text.Printable

/-!
# Quoted text in messages

Messages show a text between quotes. The quote is the apostrophe, unless the text holds an
apostrophe and no double quote. The backslash, the quote in use and every unprintable
character are escaped, so the shown text stays on one line.
-/

namespace EnumLabels.Text

/-- The quote that shows a text with the fewest escapes, an apostrophe if both do. -/
def quoteFor (text : List Char) : Char :=
  if text.contains '\'' && !text.contains '"' then '"' else '\''

/-- One character between quotes. -/
def quotedChar (quote c : Char) : List Char :=
  if c = quote ∨ c = '\\' then ['\\', c]
  else if c = '\n' then ['\\', 'n']
  else if c = '\r' then ['\\', 'r']
  else if c = '\t' then ['\\', 't']
  else if isPrintable c then [c]
  else if c.toNat < 0x100 then '\\' :: 'x' :: hexDigits .lower 2 c.toNat
  else if c.toNat < 0x10000 then '\\' :: 'u' :: hexDigits .lower 4 c.toNat
  else '\\' :: 'U' :: hexDigits .lower 8 c.toNat

/-- A text as messages show it, between quotes. -/
def quoted (text : List Char) : List Char :=
  let quote := quoteFor text
  quote :: (text.flatMap (quotedChar quote) ++ [quote])

end EnumLabels.Text

namespace EnumLabels

/-- A string as messages show it, between quotes. -/
def quote (s : String) : String := String.ofList (Text.quoted s.toList)

end EnumLabels
