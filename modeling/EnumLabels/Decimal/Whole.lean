/-!
# Whole numbers as text
-/

namespace EnumLabels.Decimal

/-- The digits of an integer behind its sign, which only negative numbers have. -/
def intText (n : Int) : List Char :=
  if n < 0 then '-' :: Nat.toDigits 10 n.natAbs else Nat.toDigits 10 n.natAbs

end EnumLabels.Decimal
