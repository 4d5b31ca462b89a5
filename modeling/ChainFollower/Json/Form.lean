import ChainFollower.Json.Print
import ChainFollower.Json.Written

/-!
# JSON forms of typed values

A type has a JSON form when its values can be written and read back.  Records
are written as objects in the order of their fields, with absent optional fields
left out.  They are read from an object, whose unknown fields are ignored and
whose known fields may not repeat, or from an array of the fields in order.
-/

namespace ChainFollower.Json

/-- Values that are written as JSON and read from it.  A reader may use `room`
levels of nesting. -/
class Form (α : Type) where
  write : α → Bytes
  read? : (room : Nat) → Written → Option α

/-- The bytes of a value's JSON form. -/
def encode [Form α] (value : α) : Bytes :=
  Form.write value

/-- The value whose JSON form the whole byte string is. -/
def decode? [Form α] (bytes : Bytes) : Option α :=
  (Written.parse? bytes).bind (Form.read? nestingLimit)

/-! ## Scalars, free-form values and lists -/

namespace Written

/-- The integer a number denotes, if it lies within the bounds. -/
def integerWithin? (least greatest : Int) : Written → Option Int
  | .number numeral => do
      let value ← numeral.integer?
      if least ≤ value ∧ value ≤ greatest then some value else none
  | _ => none

/-- The text a string denotes. -/
def text? : Written → Option String
  | .string text => text
  | _ => none

/-- The items of an array, each read by `read`. -/
def list? (read : (room : Nat) → Written → Option α) : (room : Nat) → Written → Option (List α)
  | room + 1, .array items => items.mapM (read room)
  | _, _ => none

end Written

instance : Form String where
  write := writeString
  read? _ := Written.text?

instance : Form Int64 where
  write value := writeInteger value.toInt
  read? _ written :=
    (written.integerWithin? Int64.minValue.toInt Int64.maxValue.toInt).map Int64.ofInt

instance : Form Int32 where
  write value := writeInteger value.toInt
  read? _ written :=
    (written.integerWithin? Int32.minValue.toInt Int32.maxValue.toInt).map Int32.ofInt

instance : Form Json where
  write := Json.write
  read? := ofWritten?

instance [Form α] : Form (List α) where
  write items := writeArray (items.map Form.write)
  read? := Written.list? Form.read?

/-! ## Records -/

namespace Written

/-- The value of a named field, absent or present; none if it repeats. -/
def uniqueField? (name : String) (fields : List (Option String × Written)) :
    Option (Option Written) :=
  match fields.filter fun field => field.1 == some name with
  | [] => some none
  | [field] => some (some field.2)
  | _ => none

/-- What is written for each of the named fields of a record. -/
def slots? (names : List String) : Written → Option (List (Option Written))
  | .array items =>
      if items.length ≤ names.length then
        some (items.map some ++ List.replicate (names.length - items.length) none)
      else none
  | .object fields =>
      if fields.all fun field => field.1.isSome then
        names.mapM fun name => uniqueField? name fields
      else none
  | _ => none

/-- Reads a record with the named fields: `build` makes it from what is written
for each, one level further inside. -/
def record? (names : List String) (build : (room : Nat) → List (Option Written) → Option α) :
    (room : Nat) → Written → Option α
  | 0, _ => none
  | room + 1, written => (slots? names written).bind (build room)

end Written

/-- Reads a field that has to be there. -/
def required? [Form α] (room : Nat) (slot : Option Written) : Option α :=
  slot.bind (Form.read? room)

/-- Reads a field that may be missing or null. -/
def optional? [Form α] (room : Nat) : Option Written → Option (Option α)
  | none => some none
  | some .null => some none
  | some written => (Form.read? room written).map some

/-- Reads a field that has a default when it is missing. -/
def defaulted? [Form α] (fallback : α) (room : Nat) : Option Written → Option α
  | none => some fallback
  | some written => Form.read? room written

/-- A field that is always written. -/
def field [Form α] (name : String) (value : α) : List (String × Bytes) :=
  [(name, Form.write value)]

/-- A field that is left out when its value is absent. -/
def optionalField [Form α] (name : String) : Option α → List (String × Bytes)
  | none => []
  | some value => [(name, Form.write value)]

end ChainFollower.Json
