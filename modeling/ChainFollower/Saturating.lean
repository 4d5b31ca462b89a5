/-!
# Saturating 64-bit arithmetic

Sums, differences and products of signed 64-bit words that stop at the bounds
instead of wrapping.
-/

namespace ChainFollower.Saturating

/-- The word nearest to an integer. -/
def clamp (value : Int) : Int64 :=
  Int64.ofInt (max Int64.minValue.toInt (min Int64.maxValue.toInt value))

/-- The sum, or the bound it passes. -/
def add (left right : Int64) : Int64 :=
  clamp (left.toInt + right.toInt)

/-- The difference, or the bound it passes. -/
def sub (left right : Int64) : Int64 :=
  clamp (left.toInt - right.toInt)

/-- The product, or the bound it passes. -/
def mul (left right : Int64) : Int64 :=
  clamp (left.toInt * right.toInt)

end ChainFollower.Saturating
