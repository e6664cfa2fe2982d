import EnumLabels.Decimal.Shortest

/-!
# Reading decimals

The value of a digit sequence, and the float nearest to a decimal. A decimal too large for a
float is read as infinity and one too small as zero, each with its sign.
-/

namespace EnumLabels.Decimal

/-- The value of a decimal digit. -/
def digitValue (c : Char) : Nat := c.toNat - 48

/-- The number written by a sequence of decimal digits. -/
def natOfDigits (ds : List Char) : Nat := ds.foldl (fun n c => 10 * n + digitValue c) 0

/-- The float nearest to `digits · 10 ^ exponent`, with the given sign. -/
def toFloat (negative : Bool) (digits : Nat) (exponent : Int) : Float :=
  let size := exponent + digitCount digits
  let magnitude : Float :=
    if digits = 0 ∨ size < -400 then 0.0
    else if 400 < size then 1.0 / 0.0
    else Float.ofScientific digits (exponent < 0) exponent.natAbs
  if negative then -magnitude else magnitude

end EnumLabels.Decimal
