import EnumLabels.Data.Basic
import EnumLabels.Data.Order
import EnumLabels.Decimal.Whole

/-!
# Writing JSON

Data is written on one line with a blank after every comma and colon. The entries of a mapping
are sorted by key. A code point outside printable ASCII is written as one or two escaped 16-bit
units, so the text holds ASCII only.

Keys that are no strings are written as the strings that spell them. Objects and moments have no
JSON form, and a mapping whose keys cannot be ordered has none either.
-/

namespace EnumLabels.Json

/-- The 16-bit units of a code point. -/
def units (n : Nat) : List Nat :=
  if n < 0x10000 then [n]
  else [0xD800 + (n - 0x10000) / 0x400, 0xDC00 + (n - 0x10000) % 0x400]

/-- A 16-bit unit as an escape. -/
def escapedUnit (n : Nat) : List Char := '\\' :: 'u' :: Text.hexDigits .lower 4 n

/-- One character of a string. -/
def writeChar (c : Char) : List Char :=
  if c = '"' ∨ c = '\\' then ['\\', c]
  else if c = '\n' then ['\\', 'n']
  else if c = '\r' then ['\\', 'r']
  else if c = '\t' then ['\\', 't']
  else if c = '\x08' then ['\\', 'b']
  else if c = '\x0c' then ['\\', 'f']
  else if ' ' ≤ c ∧ c ≤ '~' then [c]
  else (units c.toNat).flatMap escapedUnit

/-- One code point of a string. -/
def writePoint (n : Nat) : List Char :=
  if CodeString.isSurrogate n then escapedUnit n else writeChar (Char.ofNat n)

/-- A string between quotes. -/
def writeString : CodeString → List Char
  | .chars s => '"' :: (s.toList.flatMap writeChar ++ ['"'])
  | .points ps => '"' :: (ps.flatMap writePoint ++ ['"'])

/-- The layout of floats in JSON. -/
def floatLayout : Decimal.Layout where
  positionalFrom := -4
  positionalBelow := 16
  pointBeforeExponent := false
  notANumber := "NaN"
  infinity := "Infinity"
  negativeInfinity := "-Infinity"

/-- A value without parts. -/
def scalarText? : Data → Option (List Char)
  | .null => some "null".toList
  | .bool b => some (if b then "true".toList else "false".toList)
  | .int n => some (Decimal.intText n)
  | .float x => some (floatLayout.ofFloat x)
  | .nan _ => some floatLayout.notANumber.toList
  | _ => none

/-- The text of a key, before it is put between quotes. -/
def keyText? : Data → Option CodeString
  | .str s => some s
  | d => (scalarText? d).map fun text => .chars (String.ofList text)

/-- Parts separated by a comma and a blank. -/
def separated : List (List Char) → List Char
  | [] => []
  | [part] => part
  | part :: parts => part ++ ',' :: ' ' :: separated parts

mutual

/-- The JSON text of data. -/
def write? : Data → Option (List Char)
  | .str s => some (writeString s)
  | .list items => (writeItems? items).map fun parts => '[' :: (separated parts ++ [']'])
  | .dict entries => do
    let sorted ← Data.sortByKey? (← writeEntries? entries)
    some ('{' :: (separated (sorted.map (·.2)) ++ ['}']))
  | d => scalarText? d
termination_by structural d => d

/-- The JSON texts of the items of a list. -/
def writeItems? : List Data → Option (List (List Char))
  | [] => some []
  | x :: xs => do some ((← write? x) :: (← writeItems? xs))
termination_by structural xs => xs

/-- The JSON texts of the entries of a mapping, each beside its key. -/
def writeEntries? : List (Data × Data) → Option (List (Data × List Char))
  | [] => some []
  | e :: es => do some ((← writeEntry? e) :: (← writeEntries? es))
termination_by structural es => es

/-- The JSON text of an entry, beside its key. -/
def writeEntry? : Data × Data → Option (Data × List Char)
  | (k, v) => do
    let key ← keyText? k
    let value ← write? v
    some (k, writeString key ++ ':' :: ' ' :: value)
termination_by structural e => e

end

/-- The JSON text of data as a string. -/
def text? (d : Data) : Option String := (write? d).map String.ofList

end EnumLabels.Json
