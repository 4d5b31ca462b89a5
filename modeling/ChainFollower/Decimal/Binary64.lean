/-!
# Finite double-precision numbers

A finite binary64 number is a sign with `significand * 2 ^ exponent`.  All
arithmetic is exact and rounds once, to the nearest representable number and to
an even significand on a tie.
-/

namespace ChainFollower.Decimal

/-- A finite binary64 number.  Numbers made by `nearest?` have a significand
below `2 ^ 53`, an exponent of at least `-1074`, and a significand of at least
`2 ^ 52` unless the exponent is `-1074`; so equal numbers are equal values. -/
structure Binary64 where
  negative : Bool
  significand : Nat
  exponent : Int
  deriving DecidableEq, Repr

/-- `numerator / denominator` to the nearest natural number, ties to even. -/
def roundQuotient (numerator denominator : Nat) : Nat :=
  let floor := numerator / denominator
  let rest := numerator % denominator
  if 2 * rest < denominator then floor
  else if denominator < 2 * rest then floor + 1
  else if floor % 2 = 0 then floor
  else floor + 1

namespace Binary64

/-- Zero of either sign. -/
def zero (negative : Bool) : Binary64 :=
  ⟨negative, 0, -1074⟩

/-- Whether the number is zero. -/
def isZero (number : Binary64) : Bool :=
  number.significand == 0

/-- The same size with the other sign. -/
def negate (number : Binary64) : Binary64 :=
  { number with negative := !number.negative }

/-- The absolute value as a numerator and a denominator. -/
def ratio (number : Binary64) : Nat × Nat :=
  if 0 ≤ number.exponent then
    (number.significand * Nat.pow 2 number.exponent.toNat, 1)
  else
    (number.significand, Nat.pow 2 (-number.exponent).toNat)

/-- The exponent of the leading binary digit of a positive ratio. -/
def leadingExponent (numerator denominator : Nat) : Int :=
  let guess : Int := (numerator.log2 : Int) - (denominator.log2 : Int)
  let reached : Bool :=
    if 0 ≤ guess then denominator * Nat.pow 2 guess.toNat ≤ numerator
    else denominator ≤ numerator * Nat.pow 2 (-guess).toNat
  if reached then guess else guess - 1

/-- The binary64 number nearest to `numerator / denominator` with the given
sign, or `none` when it is out of range. -/
def nearest? (negative : Bool) (numerator denominator : Nat) : Option Binary64 :=
  if numerator = 0 then
    some (zero negative)
  else
    let exponent := max (leadingExponent numerator denominator - 52) (-1074)
    let significand :=
      if 0 ≤ exponent then roundQuotient numerator (denominator * Nat.pow 2 exponent.toNat)
      else roundQuotient (numerator * Nat.pow 2 (-exponent).toNat) denominator
    let (significand, exponent) :=
      if significand = Nat.pow 2 53 then (Nat.pow 2 52, exponent + 1) else (significand, exponent)
    if 971 < exponent then none else some ⟨negative, significand, exponent⟩

/-- The number nearest to a natural number, if it is in range. -/
def ofNat? (number : Nat) : Option Binary64 :=
  nearest? false number 1

/-- The number nearest to an integer, if it is in range. -/
def ofInt? (number : Int) : Option Binary64 :=
  nearest? (number < 0) number.natAbs 1

/-- The nearest integer, halves away from zero. -/
def rounded (number : Binary64) : Int :=
  let (numerator, denominator) := number.ratio
  let size : Int := ((2 * numerator + denominator) / (2 * denominator) : Nat)
  if number.negative then -size else size

/-- The product of the sizes of two numbers, with the sign of the first. -/
def scaleUp? (number factor : Binary64) : Option Binary64 :=
  let (numerator, denominator) := number.ratio
  let (factorUp, factorDown) := factor.ratio
  nearest? number.negative (numerator * factorUp) (denominator * factorDown)

/-- The quotient of the sizes of two numbers, with the sign of the first. -/
def scaleDown? (number factor : Binary64) : Option Binary64 :=
  let (numerator, denominator) := number.ratio
  let (factorUp, factorDown) := factor.ratio
  nearest? number.negative (numerator * factorDown) (denominator * factorUp)

/-- The number nearest to `coefficient * 10 ^ power`, if it is in range. -/
def ofDecimal? (negative : Bool) (coefficient : Nat) (power : Int) : Option Binary64 :=
  if 0 ≤ power then nearest? negative (coefficient * Nat.pow 10 power.toNat) 1
  else nearest? negative coefficient (Nat.pow 10 (-power).toNat)

end Binary64

end ChainFollower.Decimal
