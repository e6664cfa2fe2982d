import EnumLabels.Decimal.Layout
import EnumLabels.Decimal.Whole
import EnumLabels.Yaml.Plain

/-!
# Writing scalars

A scalar is written plain, between apostrophes or between double quotes, in the first of these
styles that fits. Plain text must be safe, which means that no reader takes a part of it for
punctuation, and must denote itself. Between apostrophes stands printable ASCII whose blanks do
not touch a line feed. Between double quotes everything else is escaped, so the result is ASCII.

Text that runs past column 80 is folded. Plain and apostrophe text is broken at a single blank,
double-quoted text behind a backslash.
-/

namespace EnumLabels.Yaml

/-- The column after which text is folded. -/
def width : Nat := 80

/-- The start of a new line at an indentation. -/
def newline (indent : Nat) : List Char := '\n' :: List.replicate indent ' '

/-- The characters that end a line in YAML. -/
def isBreak (c : Char) : Bool := c == '\n' || c == '\x85' || c == '\u2028' || c == '\u2029'

/-- A blank or an end of line where punctuation looks for one. -/
def isSpaceOrBreak (c : Char) : Bool := c == ' ' || c == '\t' || c == '\r' || isBreak c

/-- Whether a text is empty or starts with a blank. -/
def startsBlank : List Char → Bool
  | [] => true
  | c :: _ => c == '\x00' || isSpaceOrBreak c

/-- The first characters that plain text cannot have. -/
def indicators : List Char := "#,[]\x7b\x7d&*!|>'\"%@".toList ++ ['\x60']

/-- Whether text after its first character holds punctuation: a colon before a blank or the end,
or a hash sign behind a blank. -/
def hasPunctuation (afterBlank : Bool) : List Char → Bool
  | [] => false
  | c :: rest =>
    (c == ':' && startsBlank rest) || (c == '#' && afterBlank) ||
      hasPunctuation (c == '\x00' || isSpaceOrBreak c) rest

/-- Whether plain text would be taken for punctuation. -/
def looksLikePunctuation (text : List Char) : Bool :=
  "---".toList.isPrefixOf text || "...".toList.isPrefixOf text ||
    match text with
    | [] => false
    | c :: rest =>
      indicators.contains c || ((c == '?' || c == ':' || c == '-') && startsBlank rest) ||
        hasPunctuation (c == '\x00' || isSpaceOrBreak c) rest

/-- Printable ASCII and line feeds, which need no escape. -/
def isOrdinary (c : Char) : Bool := c == '\n' || (' ' ≤ c && c ≤ '~')

/-- Whether a text starts or ends with a blank or a line end. -/
def hasLooseEnds (text : List Char) : Bool :=
  let loose : Option Char → Bool
    | some c => c == ' ' || isBreak c
    | none => false
  loose text.head? || loose text.getLast?

/-- Whether somewhere a blank touches a line end. -/
def hasBlankAtBreak : List Char → Bool
  | [] => false
  | [_] => false
  | c :: d :: rest =>
    (c == ' ' && isBreak d) || (isBreak c && d == ' ') || hasBlankAtBreak (d :: rest)

/-- Whether a text can be written plain. -/
def isSafePlain (text : List Char) : Bool :=
  !hasLooseEnds text && !looksLikePunctuation text && !text.any isBreak && text.all isOrdinary

/-- Whether a text can be written between apostrophes. -/
def isSafeSingle (text : List Char) : Bool := text.all isOrdinary && !hasBlankAtBreak text

/-- How a scalar is written. -/
inductive Style where
  | plain
  | single
  | double
  deriving DecidableEq, Repr

/-- The style of a string. -/
def styleOf (text : List Char) : Style :=
  if isSafePlain text && Plain.isText text then .plain
  else if isSafeSingle text then .single
  else .double

/-- Plain text from a column on. A single blank past the width becomes a line end. -/
def foldPlain (folds : Bool) (indent column : Nat) (afterSpace : Bool) : List Char → List Char
  | [] => []
  | c :: rest =>
    if folds && c == ' ' && !afterSpace && rest.head? != some ' ' && width < column then
      newline indent ++ foldPlain folds indent indent true rest
    else c :: foldPlain folds indent (column + 1) (c == ' ') rest

/-- Text between apostrophes from a column on, given the character before it. A single blank past
the width becomes a line end, and a line feed becomes an empty line. -/
def foldSingle (folds : Bool) (indent column : Nat) (before : Option Char) : List Char → List Char
  | [] => []
  | c :: rest =>
    if c = '\'' then '\'' :: '\'' :: foldSingle folds indent (column + 2) (some c) rest
    else if c = '\n' then
      (if before = some '\n' then ['\n'] else ['\n', '\n']) ++
        (if rest.head? = some '\n' then [] else List.replicate indent ' ') ++
        foldSingle folds indent indent (some c) rest
    else if folds && c == ' ' && before.isSome && before != some ' ' && rest.head?.isSome &&
        rest.head? != some ' ' && width < column then
      newline indent ++ foldSingle folds indent indent (some c) rest
    else c :: foldSingle folds indent (column + 1) (some c) rest

/-- The letters of the short escapes between double quotes, by the characters they stand for. -/
def shortEscapes : List (Char × Char) :=
  [ ('\x00', '0'), ('\x07', 'a'), ('\x08', 'b'), ('\t', 't'), ('\n', 'n'), ('\x0b', 'v'),
    ('\x0c', 'f'), ('\r', 'r'), ('\x1b', 'e'), ('"', '"'), ('\\', '\\'), ('\x85', 'N'),
    ('\xa0', '_'), ('\u2028', 'L'), ('\u2029', 'P') ]

/-- The escape of a code point between double quotes, if it needs one. -/
def escape? (n : Nat) : Option (List Char) :=
  match shortEscapes.find? fun e => e.1.toNat == n with
  | some e => some ['\\', e.2]
  | none =>
    if 0x20 ≤ n ∧ n ≤ 0x7E then none
    else if n < 0x100 then some ('\\' :: 'x' :: Text.hexDigits .upper 2 n)
    else if n < 0x10000 then some ('\\' :: 'u' :: Text.hexDigits .upper 4 n)
    else some ('\\' :: 'U' :: Text.hexDigits .upper 8 n)

/-- A folded line end between double quotes. A blank that would start the new line is protected
by a backslash. -/
def foldedBreak (indent : Nat) (nextIsSpace : Bool) : List Char :=
  '\\' :: newline indent ++ (if nextIsSpace then ['\\'] else [])

/-- The column after a folded line end. -/
def foldedColumn (indent : Nat) (nextIsSpace : Bool) : Nat :=
  if nextIsSpace then indent + 1 else indent

/-- Code points between double quotes from a column on. They are folded before a blank and around
escapes, but not next to the first or the last one. -/
def foldDouble (folds : Bool) (indent column : Nat) (first afterEscape : Bool) :
    List Nat → List Char
  | [] => []
  | n :: rest =>
    let inner := folds && !first && !rest.isEmpty
    match escape? n with
    | some e =>
      let column := column + e.length
      if inner && width + 1 < column then
        let nextIsSpace := rest.head? == some 0x20
        e ++ foldedBreak indent nextIsSpace ++
          foldDouble folds indent (foldedColumn indent nextIsSpace) false true rest
      else e ++ foldDouble folds indent column false true rest
    | none =>
      let isSpace := n == 0x20
      if inner && (isSpace || afterEscape) && width < column then
        foldedBreak indent isSpace ++
          Char.ofNat n :: foldDouble folds indent (foldedColumn indent isSpace + 1) false false rest
      else Char.ofNat n :: foldDouble folds indent (column + 1) false false rest

/-- A text between double quotes from a column on, continued at an indentation. -/
def writeDouble (folds : Bool) (indent column : Nat) (text : CodeString) : List Char :=
  '"' :: (foldDouble folds indent (column + 1) true false text.toPoints ++ ['"'])

/-- The layout of floats in YAML. -/
def floatLayout : Decimal.Layout where
  positionalFrom := -4
  positionalBelow := 16
  pointBeforeExponent := true
  notANumber := ".nan"
  infinity := ".inf"
  negativeInfinity := "-.inf"

/-- A scalar to be written: its text, its style and the length of the name of its type. -/
structure Scalar where
  text : CodeString
  style : Style
  tagLength : Nat

namespace Scalar

/-- A scalar that is written as it is. -/
def ofPlain (text : List Char) (tagLength : Nat) : Scalar :=
  ⟨.chars (String.ofList text), .plain, tagLength⟩

/-- The scalar of a string. Only double quotes can hold surrogates. -/
def ofString (s : CodeString) : Scalar :=
  match s with
  | .chars text => ⟨s, styleOf text.toList, 5⟩
  | .points _ => ⟨s, .double, 5⟩

/-- The scalar of a value without parts. -/
def ofData? : Data → Option Scalar
  | .null => some (ofPlain "null".toList 6)
  | .bool b => some (ofPlain (if b then "true".toList else "false".toList) 6)
  | .int n => some (ofPlain (Decimal.intText n) 5)
  | .float x => some (ofPlain (floatLayout.ofFloat x) 7)
  | .nan _ => some (ofPlain floatLayout.notANumber.toList 7)
  | .str s => some (ofString s)
  | .moment m => some (ofPlain m.text.toList 11)
  | _ => none

/-- Whether a text holds a line end. -/
def hasBreak : CodeString → Bool
  | .chars s => s.toList.any isBreak
  | .points ps => ps.any fun n => isBreak (Char.ofNat n)

/-- Whether a scalar can be a key on one line: it is not empty, has no line ends and is short. -/
def isSimpleKey (s : Scalar) : Bool :=
  !s.text.isEmpty && !hasBreak s.text && s.text.length + s.tagLength < 128

/-- The scalar from a column on, continued at an indentation. -/
def write (s : Scalar) (folds : Bool) (indent column : Nat) : List Char :=
  match s.style, s.text with
  | .plain, .chars text => foldPlain folds indent column false text.toList
  | .single, .chars text =>
    '\'' :: (foldSingle folds indent (column + 1) none text.toList ++ ['\''])
  | _, text => writeDouble folds indent column text

end Scalar

end EnumLabels.Yaml
