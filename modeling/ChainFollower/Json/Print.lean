import ChainFollower.Json.Value

/-!
# Compact JSON output

Values are written without blanks.  Strings escape the quote, the backslash and
control characters, and nothing else; doubles use their shortest digits.
-/

namespace ChainFollower.Json

/-- Doubles are written plainly when their leading exponent is from -5 to 15,
with a `.0` on whole numbers, and with a signed exponent otherwise. -/
def doubleLayout : Decimal.Layout :=
  ⟨some (-5, 16), true⟩

/-- A lowercase hexadecimal digit. -/
def hexDigit (value : UInt8) : UInt8 :=
  if value < 10 then 0x30 + value else 0x57 + value

/-- A byte of a string as it is written. -/
def escape (byte : UInt8) : Bytes :=
  match byte with
  | 0x22 => [0x5C, 0x22]
  | 0x5C => [0x5C, 0x5C]
  | 0x08 => [0x5C, 0x62]
  | 0x09 => [0x5C, 0x74]
  | 0x0A => [0x5C, 0x6E]
  | 0x0C => [0x5C, 0x66]
  | 0x0D => [0x5C, 0x72]
  | byte =>
      if byte < 0x20 then
        [0x5C, 0x75, 0x30, 0x30, hexDigit (byte / 16), hexDigit (byte % 16)]
      else [byte]

/-- A text as a JSON string. -/
def writeString (text : String) : Bytes :=
  0x22 :: (Bytes.ofString text).flatMap escape ++ [0x22]

/-- An integer in decimal digits. -/
def writeInteger (value : Int) : Bytes :=
  Bytes.ofString (toString value)

/-- Written values with commas between them. -/
def joinComma : List Bytes → Bytes
  | [] => []
  | [last] => last
  | value :: next :: rest => value ++ 0x2C :: joinComma (next :: rest)

/-- An array of written values. -/
def writeArray (items : List Bytes) : Bytes :=
  0x5B :: joinComma items ++ [0x5D]

/-- An object of written values under their names, in the order given. -/
def writeObject (fields : List (String × Bytes)) : Bytes :=
  0x7B :: joinComma (fields.map fun (name, value) =>
    writeString name ++ 0x3A :: value) ++ [0x7D]

mutual

/-- The compact text of a value. -/
def write : Json → Bytes
  | .null => [0x6E, 0x75, 0x6C, 0x6C]
  | .boolean true => [0x74, 0x72, 0x75, 0x65]
  | .boolean false => [0x66, 0x61, 0x6C, 0x73, 0x65]
  | .integer value => writeInteger value
  | .double value => Bytes.ofString (doubleLayout.render value)
  | .string text => writeString text
  | .array items => writeArray (writeItems items)
  | .object fields => writeObject (writeFields fields)

/-- The texts of all items. -/
def writeItems : List Json → List Bytes
  | [] => []
  | item :: items => write item :: writeItems items

/-- The names and texts of all fields. -/
def writeFields : List (String × Json) → List (String × Bytes)
  | [] => []
  | (name, value) :: fields => (name, write value) :: writeFields fields

end

end ChainFollower.Json
