import ChainFollower.Config.Reading
import ChainFollower.Decimal.Integer
import ChainFollower.Settings.Setting

/-!
# Configurations in settings

Settings are converted as leniently as they can be: numbers from texts and flags,
flags from numbers and words, texts from numbers and flags.
-/

namespace ChainFollower.Config.Lenient

open Settings (Setting)

/-- A text with its ASCII letters in lowercase. -/
def lowered (text : String) : String := text.toLower

/-- The words that mean yes and no. -/
def word? (text : String) : Option Bool :=
  if lowered text ∈ ["true", "on", "yes"] then some true
  else if lowered text ∈ ["false", "off", "no"] then some false
  else none

/-- A setting as an integer within bounds.  Only numbers with a point or an exponent
are brought within the bounds. -/
def integerWithin? (least greatest : Int) : Setting → Option Int
  | .flag value => some (if value then 1 else 0)
  | .integer value => bounded value.toInt
  | .floating value => some (value.rounded least greatest)
  | .text text =>
      match word? text with
      | some value => some (if value then 1 else 0)
      | none => do
          -- a bound of zero leaves no room for a sign
          if least = 0 ∧ text.startsWith "-" then none
          bounded (← Decimal.integer? text.toList)
  | _ => none
where
  bounded (value : Int) : Option Int :=
    if least ≤ value ∧ value ≤ greatest then some value else none

/-- A setting as a flag. -/
def boolean? : Setting → Option Bool
  | .flag value => some value
  | .integer value => some (value != 0)
  | .floating value => some !value.isZero
  | .text "1" => some true
  | .text "0" => some false
  | .text text => word? text
  | _ => none

/-- A setting as a text. -/
def text? : Setting → Option String
  | .flag value => some (if value then "true" else "false")
  | .integer value => some (toString value)
  | .floating value => some value.text
  | .text text => some text
  | _ => none

/-- A setting as the name of an alternative: the name itself, or a table with it as
its only field. -/
def choice? : Setting → Option String
  | .text name => some name
  | .table [(name, _)] => some name
  | _ => none

/-- What a setting gives for each named field: a table by name, a list in order. -/
def record? (names : List String) : Setting → Option (List (Option Setting))
  | .table fields => some (names.map fun name => fields.lookup name)
  | .list items => some ((List.range names.length).map (items[·]?))
  | _ => none

/-- A setting as an integer without sign. -/
def unsigned? (setting : Setting) : Option UInt64 :=
  (integerWithin? 0 18446744073709551615 setting).map fun value => .ofNat value.toNat

instance : Source Setting where
  isNull setting := setting matches .null
  text?
  boolean?
  signed? setting :=
    (integerWithin? (-9223372036854775808) 9223372036854775807 setting).map Int64.ofInt
  unsigned?
  -- only the low half of the word is kept
  unsigned32? setting := (unsigned? setting).map UInt64.toUInt32
  list?
    | .list items => some items
    | _ => none
  choice?
  record?

end ChainFollower.Config.Lenient
