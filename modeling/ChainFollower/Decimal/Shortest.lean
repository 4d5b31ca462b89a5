import ChainFollower.Decimal.Binary64

/-!
# Shortest decimal digits

The decimal text of a binary64 number uses the fewest digits that read back as
the same number; among several such, the digits nearest to the number.
-/

namespace ChainFollower.Decimal

/-- The decimal number `coefficient * 10 ^ power`. -/
structure Scaled where
  coefficient : Nat
  power : Int
  deriving DecidableEq, Repr

namespace Scaled

/-- The value as a numerator and a denominator. -/
def ratio (value : Scaled) : Nat × Nat :=
  if 0 ≤ value.power then (value.coefficient * Nat.pow 10 value.power.toNat, 1)
  else (value.coefficient, Nat.pow 10 (-value.power).toNat)

/-- Moves trailing zero digits of the coefficient into the power.  `fuel`
bounds the number of zeros moved. -/
def strip : (fuel : Nat) → Scaled → Scaled
  | 0, value => value
  | fuel + 1, value =>
      if value.coefficient ≠ 0 ∧ value.coefficient % 10 = 0 then
        strip fuel ⟨value.coefficient / 10, value.power + 1⟩
      else value

end Scaled

/-- An interval of positive rationals over one denominator. -/
structure Interval where
  low : Nat
  high : Nat
  denominator : Nat
  closed : Bool

/-- Whether the interval holds a positive decimal number. -/
def Interval.holds (interval : Interval) (value : Scaled) : Bool :=
  let (numerator, denominator) := value.ratio
  let middle := numerator * interval.denominator
  let low := interval.low * denominator
  let high := interval.high * denominator
  if interval.closed then low ≤ middle && middle ≤ high
  else low < middle && middle < high

namespace Binary64

/-- The rationals that round to a positive number: half a unit of its last place
to either side, a quarter below a power of two whose lower neighbour is closer. -/
def roundingInterval (number : Binary64) : Interval :=
  let below := if number.significand = Nat.pow 2 52 ∧ -1074 < number.exponent then 1 else 2
  let low := 4 * number.significand - below
  let high := 4 * number.significand + 2
  let closed := number.significand % 2 == 0
  if 2 ≤ number.exponent then
    let unit := Nat.pow 2 (number.exponent - 2).toNat
    ⟨low * unit, high * unit, 1, closed⟩
  else
    ⟨low, high, Nat.pow 2 (2 - number.exponent).toNat, closed⟩

/-- The exponent of the leading decimal digit of a positive number. -/
def leadingDecimal (number : Binary64) : Int :=
  let (numerator, denominator) := number.ratio
  let whole := (Nat.repr (numerator / denominator)).length
  if denominator ≤ numerator then (whole : Int) - 1
  else
    -- the least `k` with `10 ^ k * numerator ≥ denominator`
    let digits := (Nat.repr (denominator / numerator)).length
    let guess := digits - 1
    if denominator ≤ numerator * Nat.pow 10 guess then -(guess : Int) else -(digits : Int)

/-- The two decimals with `power` as last place that enclose the number, as the
lower one, and twice the distance of the number above it against the unit. -/
def enclose (number : Binary64) (power : Int) : Nat × Ordering :=
  let (numerator, denominator) := number.ratio
  let (numerator, denominator) :=
    if 0 ≤ power then (numerator, denominator * Nat.pow 10 power.toNat)
    else (numerator * Nat.pow 10 (-power).toNat, denominator)
  (numerator / denominator, compare (2 * (numerator % denominator)) denominator)

/-- The decimal with `power` as last place that reads back as the number, if
there is one; of two, the nearer, and the even one on a tie. -/
def onGrid? (number : Binary64) (power : Int) : Option Scaled :=
  let interval := number.roundingInterval
  let (floor, half) := number.enclose power
  let lower : Scaled := ⟨floor, power⟩
  let upper : Scaled := ⟨floor + 1, power⟩
  match interval.holds lower, interval.holds upper with
  | true, true =>
      match half with
      | .lt => some lower
      | .gt => some upper
      | .eq => some (if floor % 2 = 0 then lower else upper)
  | true, false => some lower
  | false, true => some upper
  | false, false => none

/-- Tries coarser to finer grids, `places` of them, the first with last place
`power`.  Seventeen digits always suffice. -/
def firstGrid (number : Binary64) : (places : Nat) → (power : Int) → Scaled
  | 0, power => ⟨(number.enclose power).1, power⟩
  | places + 1, power =>
      match number.onGrid? power with
      | some found => found
      | none => firstGrid number places (power - 1)

/-- The fewest decimal digits that read back as the size of the number. -/
def shortest (number : Binary64) : Scaled :=
  if number.isZero then ⟨0, 0⟩
  else (firstGrid number 17 number.leadingDecimal).strip 20

end Binary64

end ChainFollower.Decimal
