import EnumLabels.Data.Basic
import EnumLabels.Decimal.Reading

/-!
# Reading JSON

The reader accepts one value between blanks, and nothing else. Of entries with the same key the
last one counts, in the place of the first. The words for infinity and for what is no number are
accepted as numbers.

Strings hold no control characters. Their escapes denote 16-bit units, and two units that form a
surrogate pair denote one character. A unit of a pair without the other one stays as it is.
-/

namespace EnumLabels.Json

/-- The blanks between the parts of a JSON text. -/
def isSpace (c : Char) : Bool := c == ' ' || c == '\t' || c == '\n' || c == '\r'

/-- The text after its leading blanks. -/
def skipSpaces (text : List Char) : List Char := text.dropWhile isSpace

/-- The code point that a short escape denotes. -/
def escape? (c : Char) : Option Nat :=
  if c = '"' then some 0x22
  else if c = '\\' then some 0x5C
  else if c = '/' then some 0x2F
  else if c = 'b' then some 0x08
  else if c = 'f' then some 0x0C
  else if c = 'n' then some 0x0A
  else if c = 'r' then some 0x0D
  else if c = 't' then some 0x09
  else none

/-- The code points and escaped units of a string up to its closing quote, with the text after
it. -/
def readUnits? : List Char → Option (List Nat × List Char)
  | [] => none
  | c :: rest =>
    if c = '"' then some ([], rest)
    else if c = '\\' then
      match rest with
      | 'u' :: a :: b :: c :: d :: rest => do
        let (n, _) ← Text.readHex? 4 [a, b, c, d]
        let (ns, after) ← readUnits? rest
        some (n :: ns, after)
      | e :: rest => do
        let n ← escape? e
        let (ns, after) ← readUnits? rest
        some (n :: ns, after)
      | [] => none
    else if c < ' ' then none
    else do
      let (ns, after) ← readUnits? rest
      some (c.toNat :: ns, after)

/-- The first unit of a surrogate pair. -/
def isHigh (n : Nat) : Bool := 0xD800 ≤ n && n < 0xDC00

/-- The second unit of a surrogate pair. -/
def isLow (n : Nat) : Bool := 0xDC00 ≤ n && n < 0xE000

/-- The code points that code points and units denote. -/
def joinUnits : List Nat → List Nat
  | [] => []
  | [n] => [n]
  | m :: n :: rest =>
    if isHigh m && isLow n then
      (0x10000 + (m - 0xD800) * 0x400 + (n - 0xDC00)) :: joinUnits rest
    else m :: joinUnits (n :: rest)

/-- Read a string after its opening quote. -/
def readString? (text : List Char) : Option (CodeString × List Char) :=
  (readUnits? text).map fun (ns, rest) => (CodeString.ofPoints (joinUnits ns), rest)

/-- The fraction digits at the start of a text, if it has a point followed by a digit. -/
def readFraction (text : List Char) : List Char × List Char :=
  match text with
  | '.' :: rest =>
    match rest.takeWhile Char.isDigit with
    | [] => ([], text)
    | ds => (ds, rest.dropWhile Char.isDigit)
  | _ => ([], text)

/-- The exponent at the start of a text, if it has one with a digit. -/
def readExponent (text : List Char) : Option Int × List Char :=
  match text with
  | e :: rest =>
    if e = 'e' ∨ e = 'E' then
      let (negative, rest) :=
        match rest with
        | '-' :: rest => (true, rest)
        | '+' :: rest => (false, rest)
        | _ => (false, rest)
      match rest.takeWhile Char.isDigit with
      | [] => (none, text)
      | ds =>
        let n : Int := Decimal.natOfDigits ds
        (some (if negative then -n else n), rest.dropWhile Char.isDigit)
    else (none, text)
  | [] => (none, text)

/-- Read the digits of a number and what follows them. It is a float if it has a fraction or an
exponent. -/
def readUnsigned? (negative : Bool) (text : List Char) : Option (Data × List Char) :=
  let whole :=
    match text with
    | '0' :: _ => ['0']
    | _ => text.takeWhile Char.isDigit
  if whole.isEmpty then none
  else
    let (fraction, rest) := readFraction (text.drop whole.length)
    match readExponent rest with
    | (exponent, rest) =>
      let n := Decimal.natOfDigits (whole ++ fraction)
      if fraction.isEmpty && exponent.isNone then
        some (.int (if negative then -n else n), rest)
      else some (.float (Decimal.toFloat negative n (exponent.getD 0 - fraction.length)), rest)

/-- The words that denote values. -/
def words : List (List Char × Data) :=
  [ ("null".toList, .null),
    ("true".toList, .bool true),
    ("false".toList, .bool false),
    ("NaN".toList, .nan .json),
    ("Infinity".toList, .float (1.0 / 0.0)),
    ("-Infinity".toList, .float (-1.0 / 0.0)) ]

/-- Read a word or a number. -/
def readScalar? (text : List Char) : Option (Data × List Char) :=
  match words.find? fun w => w.1.isPrefixOf text with
  | some (word, value) => some (value, text.drop word.length)
  | none =>
    match text with
    | '-' :: rest => readUnsigned? true rest
    | _ => readUnsigned? false text

mutual

/-- Read a value at the start of a text. Every nested call uses one unit of fuel. -/
def readValue? : (fuel : Nat) → List Char → Option (Data × List Char)
  | 0, _ => none
  | _ + 1, [] => none
  | fuel + 1, c :: rest =>
    if c = '"' then (readString? rest).map fun (s, rest) => (.str s, rest)
    else if c = '[' then
      match skipSpaces rest with
      | ']' :: rest => some (.list [], rest)
      | rest => (readItems? fuel rest).map fun (xs, rest) => (.list xs, rest)
    else if c = '{' then
      match skipSpaces rest with
      | '}' :: rest => some (.dict [], rest)
      | rest => (readEntries? fuel rest).map fun (es, rest) => (.dict (Data.ofPairs es), rest)
    else readScalar? (c :: rest)

/-- Read the items of a list and its closing bracket. -/
def readItems? : (fuel : Nat) → List Char → Option (List Data × List Char)
  | 0, _ => none
  | fuel + 1, text => do
    let (x, rest) ← readValue? fuel text
    match skipSpaces rest with
    | ']' :: rest => some ([x], rest)
    | ',' :: rest =>
      let (xs, rest) ← readItems? fuel (skipSpaces rest)
      some (x :: xs, rest)
    | _ => none

/-- Read the entries of a mapping and its closing brace. -/
def readEntries? : (fuel : Nat) → List Char → Option (List (Data × Data) × List Char)
  | 0, _ => none
  | fuel + 1, text => do
    let (key, rest) ←
      match text with
      | '"' :: rest => readString? rest
      | _ => none
    let (value, rest) ←
      match skipSpaces rest with
      | ':' :: rest => readValue? fuel (skipSpaces rest)
      | _ => none
    let entry := (Data.str key, value)
    match skipSpaces rest with
    | '}' :: rest => some ([entry], rest)
    | ',' :: rest =>
      let (es, rest) ← readEntries? fuel (skipSpaces rest)
      some (entry :: es, rest)
    | _ => none

end

/-- The data that a JSON text denotes. -/
def read? (text : List Char) : Option Data :=
  match readValue? (2 * text.length + 2) (skipSpaces text) with
  | some (value, rest) => if (skipSpaces rest).isEmpty then some value else none
  | none => none

/-- The data that a JSON string denotes. -/
def data? (s : String) : Option Data := read? s.toList

end EnumLabels.Json
