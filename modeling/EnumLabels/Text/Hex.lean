/-!
# Hexadecimal code points

Escapes write a code point with a fixed number of hexadecimal digits. Writing uses one letter
case throughout; reading accepts both.
-/

namespace EnumLabels.Text

/-- The letter case of the digits above nine. -/
inductive HexCase where
  | lower
  | upper
  deriving DecidableEq, Repr

/-- The digit of value `n`, for `n` below 16. -/
def hexDigit (letters : HexCase) (n : Nat) : Char :=
  if n < 10 then Char.ofNat (48 + n)
  else
    match letters with
    | .lower => Char.ofNat (87 + n)
    | .upper => Char.ofNat (55 + n)

/-- The last `width` hexadecimal digits of `n`. -/
def hexDigits (letters : HexCase) : (width : Nat) → (n : Nat) → List Char
  | 0, _ => []
  | width + 1, n => hexDigits letters width (n / 16) ++ [hexDigit letters (n % 16)]

/-- The value of a hexadecimal digit. -/
def hexValue? (c : Char) : Option Nat :=
  let n := c.toNat
  if 48 ≤ n ∧ n ≤ 57 then some (n - 48)
  else if 97 ≤ n ∧ n ≤ 102 then some (n - 87)
  else if 65 ≤ n ∧ n ≤ 70 then some (n - 55)
  else none

/-- Read exactly `width` digits after a number already read, with the text that follows them. -/
def readHexFrom? (value : Nat) : (width : Nat) → List Char → Option (Nat × List Char)
  | 0, rest => some (value, rest)
  | _ + 1, [] => none
  | width + 1, c :: rest => (hexValue? c).bind fun d => readHexFrom? (16 * value + d) width rest

/-- Read exactly `width` digits, with the text that follows them. -/
def readHex? (width : Nat) (text : List Char) : Option (Nat × List Char) :=
  readHexFrom? 0 width text

end EnumLabels.Text
