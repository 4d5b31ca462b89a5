import ChainFollower.Bytes
import ChainFollower.Decimal.Layout

/-!
# JSON values

Free-form values as they are kept: integers apart from doubles, and the fields
of an object sorted by name, one value for each name.
-/

namespace ChainFollower

open Decimal (Binary64)

/-- A JSON value.  `integer` holds the integers of `-2^63 ..= 2^64 - 1`; every
other number is a `double`.  The fields of an `object` are in ascending order of
their names, without repetition. -/
inductive Json where
  | null
  | boolean (value : Bool)
  | integer (value : Int)
  | double (value : Binary64)
  | string (text : String)
  | array (items : List Json)
  | object (fields : List (String × Json))
  deriving Repr, Inhabited

namespace Json

/-- The integers a number without fraction and exponent keeps exactly. -/
def isExact (value : Int) : Bool :=
  -9223372036854775808 ≤ value && value ≤ 18446744073709551615

/-- Inserts a field into ascending fields; an equal name is replaced. -/
def insertField (name : String) (value : α) :
    List (String × α) → List (String × α)
  | [] => [(name, value)]
  | (other, kept) :: rest =>
      if name < other then (name, value) :: (other, kept) :: rest
      else if other < name then (other, kept) :: insertField name value rest
      else (name, value) :: rest

/-- An object of the given fields; of a repeated name the last value counts. -/
def ofFields (fields : List (String × Json)) : Json :=
  .object (fields.foldl (fun kept field => insertField field.1 field.2 kept) [])

/-- The value of a field of an object. -/
def field? (name : String) : Json → Option Json
  | .object fields => fields.lookup name
  | _ => none

end Json

end ChainFollower
