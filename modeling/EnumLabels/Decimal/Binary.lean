/-!
# Floating-point values taken apart

A finite value is a signed integer mantissa times a power of two. Comparisons with integers and
the choice of decimal digits are made on these parts in exact arithmetic.
-/

namespace EnumLabels.Decimal

/-- A floating-point value by its exact meaning. -/
inductive Binary where
  | nan
  | infinite (negative : Bool)
  /-- The value `± mantissa · 2 ^ exponent`. -/
  | finite (negative : Bool) (mantissa : Nat) (exponent : Int)
  deriving DecidableEq, Repr

namespace Binary

/-- The meaning of the 64 bits of a float. -/
def ofBits (bits : UInt64) : Binary :=
  let negative := bits >>> 63 == 1
  let exponent := ((bits >>> 52) &&& 0x7FF).toNat
  let fraction := (bits &&& 0xFFFFFFFFFFFFF).toNat
  if exponent = 0x7FF then if fraction = 0 then infinite negative else nan
  else if exponent = 0 then finite negative fraction (-1074)
  else finite negative (0x10000000000000 + fraction) (exponent - 1075)

/-- The meaning of a float. -/
def ofFloat (x : Float) : Binary := ofBits x.toBits

/-- Whether a value is exactly the given integer. -/
def equalsInt : Binary → Int → Bool
  | finite negative mantissa exponent, n =>
    let signed : Int := if negative then -mantissa else mantissa
    signed * Nat.pow 2 exponent.toNat == n * Nat.pow 2 (-exponent).toNat
  | _, _ => false

/-- Whether a finite value is below the given integer. -/
def belowInt : Binary → Int → Bool
  | finite negative mantissa exponent, n =>
    let signed : Int := if negative then -mantissa else mantissa
    signed * Nat.pow 2 exponent.toNat < n * Nat.pow 2 (-exponent).toNat
  | infinite negative, _ => negative
  | nan, _ => false

end Binary

end EnumLabels.Decimal
