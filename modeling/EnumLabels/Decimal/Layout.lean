import EnumLabels.Decimal.Shortest

/-!
# Laying out a float

A layout says which magnitudes are written positionally and how the others, the infinities and
the value that is no number are spelled. The digits are always the fewest that read back.
-/

namespace EnumLabels.Decimal

/-- The decisions a format makes about floats. -/
structure Layout where
  /-- Least exponent of the leading digit that is written positionally. -/
  positionalFrom : Int
  /-- First exponent of the leading digit that is written with an exponent again. -/
  positionalBelow : Int
  /-- Whether a lone digit before an exponent is followed by `.0`. -/
  pointBeforeExponent : Bool
  notANumber : String
  infinity : String
  negativeInfinity : String

/-- The digits of a natural number. -/
def digits (n : Nat) : List Char := Nat.toDigits 10 n

/-- Remove the trailing zeros of a digit sequence, but keep its first digit. -/
def stripZeros : List Char → List Char
  | [] => []
  | d :: rest => d :: (rest.reverse.dropWhile (· == '0')).reverse

/-- A digit sequence whose leading digit has the given exponent, without exponent. -/
def positional (ds : List Char) (leading : Int) : List Char :=
  if leading < 0 then '0' :: '.' :: (List.replicate (-leading - 1).toNat '0' ++ ds)
  else
    let whole := leading.toNat + 1
    if ds.length ≤ whole then ds ++ List.replicate (whole - ds.length) '0' ++ ['.', '0']
    else ds.take whole ++ '.' :: ds.drop whole

/-- A digit sequence whose leading digit has the given exponent, with an exponent of at least two
digits. -/
def scientific (layout : Layout) (ds : List Char) (leading : Int) : List Char :=
  let fraction :=
    match ds.drop 1 with
    | [] => if layout.pointBeforeExponent then ['.', '0'] else []
    | rest => '.' :: rest
  let magnitude := digits leading.natAbs
  let padded := if magnitude.length < 2 then '0' :: magnitude else magnitude
  ds.take 1 ++ fraction ++ 'e' :: (if leading < 0 then '-' else '+') :: padded

/-- The text of a value in a layout. -/
def Layout.text (layout : Layout) : Binary → List Char
  | .nan => layout.notANumber.toList
  | .infinite negative => (if negative then layout.negativeInfinity else layout.infinity).toList
  | .finite negative mantissa exponent =>
    let found := shortest mantissa exponent
    let all := digits found.digits
    let leading := if mantissa = 0 then 0 else found.exponent + all.length - 1
    let ds := stripZeros all
    let body :=
      if layout.positionalFrom ≤ leading ∧ leading < layout.positionalBelow then
        positional ds leading
      else scientific layout ds leading
    if negative then '-' :: body else body

/-- The text of a float in a layout. -/
def Layout.ofFloat (layout : Layout) (x : Float) : List Char := layout.text (Binary.ofFloat x)

end EnumLabels.Decimal
