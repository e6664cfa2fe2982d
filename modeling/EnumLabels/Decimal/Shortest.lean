import EnumLabels.Decimal.Binary

/-!
# The fewest digits that read back

Several decimals may denote the same float, namely all those nearer to it than to its
neighbours. `shortest` chooses one with the fewest digits, the nearest of those, and the even
one of two equally near. The search is exact: it compares natural numbers only.
-/

namespace EnumLabels.Decimal

/-- The number `digits · 10 ^ exponent`. -/
structure Scaled where
  digits : Nat
  exponent : Int
  deriving DecidableEq, Repr

/-- The number of decimal digits of a natural number, one for zero. -/
def digitCount (n : Nat) : Nat := (Nat.toDigits 10 n).length

/-- A positive value with the two ends of the interval of numbers that are nearest to it, all
three over one denominator. -/
structure Interval where
  low : Nat
  value : Nat
  high : Nat
  denominator : Nat
  /-- Whether the two ends themselves belong to the interval. -/
  closed : Bool

/-- The interval of the float `mantissa · 2 ^ exponent`. The gap below a power of two is half as
wide as the gap above it. -/
def interval (mantissa : Nat) (exponent : Int) : Interval :=
  let factor := Nat.pow 2 (exponent - 2).toNat
  let below := if mantissa = 0x10000000000000 ∧ exponent > -1074 then 1 else 2
  { low := (4 * mantissa - below) * factor
    value := 4 * mantissa * factor
    high := (4 * mantissa + 2) * factor
    denominator := Nat.pow 2 (2 - exponent).toNat
    closed := mantissa % 2 == 0 }

namespace Interval

/-- The exponent of the leading digit of the value. -/
def leading (i : Interval) : Int :=
  if i.denominator ≤ i.value then digitCount (i.value / i.denominator) - 1
  else
    let k := digitCount (i.denominator / i.value)
    if i.denominator ≤ i.value * Nat.pow 10 (k - 1) then 1 - k else -k

/-- Whether `digits · 10 ^ exponent` lies in the interval. -/
def holds (i : Interval) (candidate : Scaled) : Bool :=
  let n := candidate.digits * Nat.pow 10 candidate.exponent.toNat * i.denominator
  let scale := Nat.pow 10 (-candidate.exponent).toNat
  if i.closed then i.low * scale ≤ n && n ≤ i.high * scale
  else i.low * scale < n && n < i.high * scale

/-- The multiple of `10 ^ exponent` in the interval that is nearest to the value. -/
def nearest? (i : Interval) (exponent : Int) : Option Scaled :=
  let unit := Nat.pow 10 exponent.toNat * i.denominator
  let value := i.value * Nat.pow 10 (-exponent).toNat
  let floor := value / unit
  let lower : Scaled := ⟨floor, exponent⟩
  let upper : Scaled := ⟨floor + 1, exponent⟩
  let middle := (2 * floor + 1) * unit
  if i.holds lower then
    if i.holds upper then
      if 2 * value < middle then some lower
      else if middle < 2 * value then some upper
      else if floor % 2 = 0 then some lower else some upper
    else some lower
  else if i.holds upper then some upper
  else none

end Interval

/-- The shortest decimal that reads back as the float `mantissa · 2 ^ exponent`. Seventeen digits
are enough; the exact value is the answer should they not be. -/
def shortest (mantissa : Nat) (exponent : Int) : Scaled :=
  if mantissa = 0 then ⟨0, 0⟩
  else
    let i := interval mantissa exponent
    match (List.range 17).findSome? fun (n : Nat) => i.nearest? (i.leading - n) with
    | some found => found
    | none =>
      if 0 ≤ exponent then ⟨mantissa * Nat.pow 2 exponent.toNat, 0⟩
      else ⟨mantissa * Nat.pow 5 (-exponent).toNat, exponent⟩

end EnumLabels.Decimal
