/-!
# Decimal integers

Integers written by decimal digits, with or without a sign.
-/

namespace ChainFollower.Decimal

/-- The number that decimal digits write; there has to be at least one. -/
def natural? (digits : List Char) : Option Nat :=
  if digits.isEmpty || !digits.all Char.isDigit then none
  else some (digits.foldl (fun value digit => value * 10 + (digit.toNat - 48)) 0)

/-- The integer that decimal digits write after an optional sign. -/
def integer? : List Char → Option Int
  | '-' :: digits => (natural? digits).map fun size => -size
  | '+' :: digits => (natural? digits).map fun size => size
  | digits => (natural? digits).map fun size => size

/-- An integer as a word of 64 bits, if it has no more. -/
def word? (value : Int) : Option Int64 :=
  if Int64.minValue.toInt ≤ value ∧ value ≤ Int64.maxValue.toInt then some (.ofInt value)
  else none

end ChainFollower.Decimal
