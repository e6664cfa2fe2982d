import EnumLabels.Data.Basic
import EnumLabels.Data.Fault
import EnumLabels.Decimal.Reading

/-!
# What a plain scalar denotes

A scalar written without quotes denotes a truth value, a float, an integer, null or a moment if
it has the form of one, tried in this order, and otherwise the text itself. Two forms are set
apart: `<<` as a key merges mappings, and `=` is reserved.

Underscores may stand between the digits of numbers, and colons separate sexagesimal digits. A
number of the right form may still denote nothing, such as a binary number without digits.
-/

namespace EnumLabels.Yaml

/-- What a plain scalar denotes. -/
inductive Plain where
  | data (d : Data)
  /-- The text itself. -/
  | itself
  | merge
  | reserved
  /-- It has the form of a number or a moment but denotes none. -/
  | invalid (fault : ValueFault)

namespace Plain

/-- A decimal digit or an underscore. -/
def isDigitOrGap (c : Char) : Bool := c.isDigit || c == '_'

/-- The characters without the underscores. -/
def withoutGaps (text : List Char) : List Char := text.filter (· != '_')

/-- The words that denote true. -/
def trueWords : List String := ["yes", "Yes", "YES", "true", "True", "TRUE", "on", "On", "ON"]

/-- The words that denote false. -/
def falseWords : List String := ["no", "No", "NO", "false", "False", "FALSE", "off", "Off", "OFF"]

/-- The words that denote null. -/
def nullWords : List String := ["", "~", "null", "Null", "NULL"]

/-- Whether a text is one of some words. -/
def isOneOf (words : List String) (text : List Char) : Bool := words.any fun w => w.toList == text

/-- Whether a number is negative, and its text without the sign. -/
def splitSign : List Char → Bool × List Char
  | '-' :: rest => (true, rest)
  | '+' :: rest => (false, rest)
  | text => (false, text)

/-- Split digits with gaps that start with a digit off a text. -/
def leadingDigits? (text : List Char) : Option (List Char × List Char) :=
  match text with
  | c :: _ =>
    if c.isDigit then some (text.takeWhile isDigitOrGap, text.dropWhile isDigitOrGap) else none
  | [] => none

/-- The value of an exponent, which needs a letter, a sign and digits. No text is no exponent. -/
def exponent? (text : List Char) : Option Int :=
  match text with
  | [] => some 0
  | e :: sign :: ds =>
    if (e = 'e' ∨ e = 'E') ∧ !ds.isEmpty ∧ ds.all Char.isDigit then
      if sign = '-' then some (-(Decimal.natOfDigits ds : Int))
      else if sign = '+' then some (Decimal.natOfDigits ds)
      else none
    else none
  | _ => none

/-- The float with the given digits before and after the point and the given exponent. -/
def floatOf (negative : Bool) (whole fraction : List Char) (exponent : Int) : Float :=
  let fraction := withoutGaps fraction
  Decimal.toFloat negative (Decimal.natOfDigits (withoutGaps whole ++ fraction))
    (exponent - fraction.length)

/-- A float in decimal form. Digits before the point may carry a sign. -/
def decimalFloat? (text : List Char) : Option Float :=
  match text with
  | '.' :: rest => do
    let (fraction, rest) ← leadingDigits? rest
    some (floatOf false [] fraction (← exponent? rest))
  | _ => do
    let (negative, rest) := splitSign text
    let (whole, rest) ← leadingDigits? rest
    match rest with
    | '.' :: rest =>
      some (floatOf negative whole (rest.takeWhile isDigitOrGap)
        (← exponent? (rest.dropWhile isDigitOrGap)))
    | _ => none

/-- A sexagesimal digit: one decimal digit, or two of which the first is below six. -/
def isSexagesimal : List Char → Bool
  | [c] => c.isDigit
  | [c, d] => '0' ≤ c && c ≤ '5' && d.isDigit
  | _ => false

/-- The parts of a text between colons. -/
def colonParts : List Char → List (List Char)
  | [] => [[]]
  | c :: rest =>
    if c = ':' then [] :: colonParts rest
    else
      match colonParts rest with
      | [] => [[c]]
      | part :: parts => (c :: part) :: parts

/-- The first part and the sexagesimal digits after it, of which there is at least one. -/
def sexagesimal? (text : List Char) : Option (List Char × List (List Char)) :=
  match colonParts text with
  | whole :: part :: parts =>
    match leadingDigits? whole with
    | some (_, []) =>
      if (part :: parts).all isSexagesimal then some (whole, part :: parts) else none
    | _ => none
  | _ => none

/-- The sum of sexagesimal digits, each times its power of sixty, the last digit first. -/
def sexagesimalSum (power : Nat) : List Float → Float → Float
  | [], sum => sum
  | d :: ds, sum => sexagesimalSum (60 * power) ds (sum + d * Decimal.toFloat false power 0)

/-- A float with sexagesimal digits before its point. The inner option is none if the place of a
digit is worth more than any float. -/
def sexagesimalFloat? (text : List Char) : Option (Option Float) := do
  let (negative, rest) := splitSign text
  let whole := rest.takeWhile (· != '.')
  match rest.drop whole.length with
  | '.' :: fraction =>
    if fraction.all isDigitOrGap then
      let (first, parts) ← sexagesimal? whole
      let float (ds : List Char) : Float := floatOf false ds [] 0
      let last := floatOf false (parts.getLast?.getD []) fraction 0
      let sum := sexagesimalSum 1 (last :: ((first :: parts.dropLast).reverse.map float)) 0
      if Nat.pow 2 1024 ≤ Nat.pow 60 parts.length then some none
      else some (some (if negative then -sum else sum))
    else none
  | _ => none

/-- The infinity that a text denotes. -/
def infinity? (text : List Char) : Option Float :=
  let (negative, rest) := splitSign text
  if isOneOf [".inf", ".Inf", ".INF"] rest then
    some (if negative then -1.0 / 0.0 else 1.0 / 0.0)
  else none

/-- What a text of the form of a float denotes. -/
def float? (text : List Char) : Option Plain :=
  match decimalFloat? text <|> infinity? text with
  | some x => some (data (.float x))
  | none =>
    if isOneOf [".nan", ".NaN", ".NAN"] text then some (data (.nan .yaml))
    else
      (sexagesimalFloat? text).map fun found =>
        match found with
        | some x => data (.float x)
        | none => invalid .placeTooLarge

/-- The number written in a base. -/
def natOfBase (base : Nat) (ds : List Char) : Nat :=
  ds.foldl (fun n c => base * n + (Text.hexValue? c).getD 0) 0

/-- The digits of a number in a base, without the gaps. There may be gaps only. -/
def digitsOfBase? (isDigit : Char → Bool) (text : List Char) : Option (List Char) :=
  if !text.isEmpty ∧ text.all (fun c => isDigit c || c == '_') then some (withoutGaps text)
  else none

/-- The natural number that digits in a base denote. There must be a digit. -/
def natOrFault (base : Nat) (ds : List Char) : Except ValueFault Nat :=
  if ds.isEmpty then .error (.noDigits base) else .ok (natOfBase base ds)

/-- The natural number that an unsigned text denotes, if it has the form of one. -/
def nat? (text : List Char) : Option (Except ValueFault Nat) :=
  match text with
  | ['0'] => some (.ok 0)
  | '0' :: 'b' :: ds => (digitsOfBase? (fun c => c == '0' || c == '1') ds).map (natOrFault 2)
  | '0' :: 'x' :: ds => (digitsOfBase? (fun c => (Text.hexValue? c).isSome) ds).map (natOrFault 16)
  | '0' :: ds => (digitsOfBase? (fun c => '0' ≤ c && c ≤ '7') ds).map fun ds => .ok (natOfBase 8 ds)
  | _ =>
    match leadingDigits? text with
    | some (ds, []) => some (.ok (Decimal.natOfDigits (withoutGaps ds)))
    | _ =>
      (sexagesimal? text).map fun (first, parts) =>
        .ok <| parts.foldl (fun n part => 60 * n + Decimal.natOfDigits part)
          (Decimal.natOfDigits (withoutGaps first))

/-- Read between `least` and two digits. -/
def shortNumber? (least : Nat) (text : List Char) : Option (Nat × List Char) :=
  let ds := (text.take 2).takeWhile Char.isDigit
  if ds.length < least then none else some (Decimal.natOfDigits ds, text.drop ds.length)

/-- Read a given character. -/
def skip? (c : Char) : List Char → Option (List Char)
  | d :: rest => if c = d then some rest else none
  | [] => none

/-- A blank within a moment. -/
def isGap (c : Char) : Bool := c == ' ' || c == '\t'

/-- Read the offset at the end of a moment. No text states no offset. -/
def offset? (text : List Char) : Option (Option Int) :=
  if text.isEmpty then some none
  else
    match text.dropWhile isGap with
    | ['Z'] => some (some 0)
    | sign :: rest => do
      if sign ≠ '+' ∧ sign ≠ '-' then none
      let (hours, rest) ← shortNumber? 1 rest
      let minutes ←
        match rest with
        | [] => some 0
        | ':' :: rest => do
          let (minutes, rest) ← shortNumber? 2 rest
          if rest.isEmpty then some minutes else none
        | _ => none
      let total : Int := hours * 60 + minutes
      some (some (if sign = '-' then -total else total))
    | [] => none

/-- Read the time of day of a moment and its offset. -/
def clock? (text : List Char) : Option Clock := do
  let (hour, rest) ← shortNumber? 1 text
  let (minute, rest) ← shortNumber? 2 (← skip? ':' rest)
  let (second, rest) ← shortNumber? 2 (← skip? ':' rest)
  let (fraction, rest) :=
    match rest with
    | '.' :: rest => (rest.takeWhile Char.isDigit, rest.dropWhile Char.isDigit)
    | _ => ([], rest)
  let six := fraction.take 6
  let microsecond := Decimal.natOfDigits six * Nat.pow 10 (6 - six.length)
  some ⟨hour, minute, second, microsecond, ← offset? rest⟩

/-- The moment whose form a text has, valid or not. -/
def moment? (text : List Char) : Option Moment := do
  let year := text.take 4
  if year.length ≠ 4 ∨ !year.all Char.isDigit then none
  let (month, rest) ← shortNumber? 1 (← skip? '-' (text.drop 4))
  let monthWidth := text.length - 5 - rest.length
  let (day, rest) ← shortNumber? 1 (← skip? '-' rest)
  let year := Decimal.natOfDigits year
  match rest with
  | [] => if monthWidth = 2 ∧ text.length = 10 then some ⟨year, month, day, none⟩ else none
  | c :: after =>
    if c = 'T' ∨ c = 't' then some ⟨year, month, day, some (← clock? after)⟩
    else if isGap c then some ⟨year, month, day, some (← clock? (after.dropWhile isGap))⟩
    else none

/-- What a plain scalar denotes. -/
def of (text : List Char) : Plain :=
  if isOneOf trueWords text then data (.bool true)
  else if isOneOf falseWords text then data (.bool false)
  else
    match float? text with
    | some found => found
    | none =>
      let (negative, unsigned) := splitSign text
      match nat? unsigned with
      | some (.ok n) => data (.int (if negative then -(n : Int) else n))
      | some (.error fault) => invalid fault
      | none =>
        if text == ['<', '<'] then merge
        else if isOneOf nullWords text then data .null
        else
          match moment? text with
          | some m =>
            match m.fault? with
            | some fault => invalid (.moment fault)
            | none => data (.moment m)
          | none => if text == ['='] then reserved else itself

/-- Whether a plain scalar denotes its own text. -/
def isText (text : List Char) : Bool :=
  match of text with
  | itself => true
  | _ => false

end Plain

end EnumLabels.Yaml
