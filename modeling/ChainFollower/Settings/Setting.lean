import ChainFollower.Decimal.Layout
import ChainFollower.Json.Value

/-!
# Settings

A setting is a value from a configuration file or from the environment.  Settings
of several sources are laid over one another: tables are merged field by field,
everything else is replaced.
-/

namespace ChainFollower.Settings

open Decimal (Binary64)

/-- A number with a point or an exponent, or one of the special numbers. -/
inductive Floating where
  | finite (number : Binary64)
  | infinite (negative : Bool)
  | undefined
  deriving DecidableEq, Repr

namespace Floating

/-- The text of a number: its shortest digits, never with an exponent. -/
def text : Floating → String
  | .finite number => Decimal.Layout.render ⟨none, false⟩ number
  | .infinite negative => if negative then "-inf" else "inf"
  | .undefined => "NaN"

/-- Whether a number is zero. -/
def isZero : Floating → Bool
  | .finite number => number.isZero
  | _ => false

/-- The nearest integer, halves away from zero, or the bound that is exceeded. -/
def rounded (least greatest : Int) : Floating → Int
  | .finite number => max least (min greatest number.rounded)
  | .infinite negative => if negative then least else greatest
  | .undefined => 0

end Floating

/-- A setting.  The fields of a table are in ascending order of their names,
without repetition. -/
inductive Setting where
  | null
  | flag (value : Bool)
  | integer (value : Int64)
  | floating (value : Floating)
  | text (value : String)
  | list (items : List Setting)
  | table (fields : List (String × Setting))
  deriving Inhabited

namespace Setting

/-- The table without fields. -/
def empty : Setting := .table []

/-- The fields of a table; other settings have none. -/
def fields : Setting → List (String × Setting)
  | .table fields => fields
  | _ => []

/-- The items of a list; other settings have none. -/
def items : Setting → List Setting
  | .list items => items
  | _ => []

mutual

/-- Lays a setting over what is there.  A table is merged into it, anything else
replaces it. -/
def overlay : Setting → Option Setting → Setting
  | .table fields, existing => overlayFields fields (existing.getD empty)
  | setting, _ => setting

/-- Lays named settings over a setting, which becomes a table to hold them. -/
def overlayFields : List (String × Setting) → Setting → Setting
  | [], target => target
  | (name, setting) :: rest, target =>
      overlayFields rest (.table
        (Json.insertField name (overlay setting (target.fields.lookup name)) target.fields))

end

/-- A step into a setting. -/
inductive Step where
  | field (name : String)
  /-- The item at a place of a list; negative places count from its end. -/
  | item (place : Int)
  deriving DecidableEq, Repr

/-- Lays a setting over what is found along a path.  Whatever is in the way becomes
a table or a list, lists are padded with nulls, and an item of a list is replaced as
a whole. -/
def place : List Step → Setting → Option Setting → Setting
  | [], setting, existing => setting.overlay existing
  | .field name :: rest, setting, existing =>
      let fields := (existing.map fields).getD []
      .table (Json.insertField name (place rest setting (fields.lookup name)) fields)
  | .item index :: rest, setting, existing =>
      let items := (existing.map items).getD []
      let index := (if index < 0 then (items.length : Int) + index else index).toNat
      let padded := items ++ List.replicate (index + 1 - items.length) .null
      .list (padded.set index
        (if rest.isEmpty then setting else place rest setting padded[index]?))

end Setting

end ChainFollower.Settings
