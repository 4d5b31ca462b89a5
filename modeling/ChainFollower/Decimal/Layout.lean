import ChainFollower.Decimal.Shortest

/-!
# Layout of decimal numbers

How chosen digits become text: which sizes are written plainly, which with an
exponent, and whether a whole number keeps a `.0`.
-/

namespace ChainFollower.Decimal

/-- The choices a number format makes once its digits are known. -/
structure Layout where
  /-- The leading exponents written plainly: from the first, below the second.
  Every exponent when absent. -/
  plain : Option (Int × Int)
  /-- Whether a whole number written plainly ends in `.0`. -/
  keepsPoint : Bool
  deriving DecidableEq, Repr

namespace Layout

/-- `count` zero digits. -/
def zeros (count : Nat) : String :=
  String.ofList (List.replicate count '0')

/-- The text of a number without an exponent. -/
def plainText (layout : Layout) (value : Scaled) : String :=
  let digits := (Nat.repr value.coefficient).toList
  if 0 ≤ value.power then
    String.ofList digits ++ zeros value.power.toNat ++ (if layout.keepsPoint then ".0" else "")
  else
    let places := (-value.power).toNat
    if places < digits.length then
      let (whole, fraction) := digits.splitAt (digits.length - places)
      String.ofList whole ++ "." ++ String.ofList fraction
    else
      "0." ++ zeros (places - digits.length) ++ String.ofList digits

/-- The text of a number with an exponent: one digit before the point, and an
explicit sign and no padding in the exponent. -/
def scientificText (value : Scaled) : String :=
  let digits := (Nat.repr value.coefficient).toList
  let exponent := value.power + (digits.length : Int) - 1
  let sign := if exponent < 0 then "-" else "+"
  let fraction := String.ofList (digits.drop 1)
  String.ofList (digits.take 1) ++ (if fraction.isEmpty then "" else "." ++ fraction) ++
    "e" ++ sign ++ Nat.repr exponent.natAbs

/-- The text of a non-negative decimal number. -/
def text (layout : Layout) (value : Scaled) : String :=
  let exponent := value.power + ((Nat.repr value.coefficient).length : Int) - 1
  match layout.plain with
  | none => layout.plainText value
  | some (low, high) =>
      if low ≤ exponent ∧ exponent < high then layout.plainText value
      else scientificText value

/-- The text of a finite number in its shortest digits. -/
def render (layout : Layout) (number : Binary64) : String :=
  (if number.negative then "-" else "") ++ layout.text number.shortest

end Layout

end ChainFollower.Decimal
