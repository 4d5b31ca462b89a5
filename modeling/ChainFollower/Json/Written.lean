import ChainFollower.Json.Value

/-!
# JSON texts

The tree of a JSON text as it is written: numbers keep their digits, strings
keep whether they denote a text, objects keep repeated fields.  What a value
means to its reader is decided afterwards, so that a part nobody reads is held
to the grammar alone.

`Written.parse?` reads one value with surrounding blanks from a byte string.
-/

namespace ChainFollower.Json

open Decimal (Binary64)

/-! ## Bytes of the grammar

Patterns below name bytes by their ASCII codes: `0x22` is the quote, `0x5C` the
backslash, `0x2C` the comma, `0x3A` the colon, `0x5B` and `0x5D` the brackets,
`0x7B` and `0x7D` the braces.
-/

namespace Ascii

/-- Space, tab, line feed and carriage return. -/
def isBlank (byte : UInt8) : Bool :=
  byte == 0x20 || byte == 0x09 || byte == 0x0A || byte == 0x0D

/-- A decimal digit. -/
def isDigit (byte : UInt8) : Bool :=
  0x30 ≤ byte && byte ≤ 0x39

/-- The value of a hexadecimal digit of either case. -/
def hexValue? (byte : UInt8) : Option Nat :=
  if 0x30 ≤ byte && byte ≤ 0x39 then some (byte.toNat - 0x30)
  else if 0x41 ≤ byte && byte ≤ 0x46 then some (byte.toNat - 0x37)
  else if 0x61 ≤ byte && byte ≤ 0x66 then some (byte.toNat - 0x57)
  else none

end Ascii

/-- The rest of the bytes after leading blanks. -/
def skipBlanks (bytes : Bytes) : Bytes :=
  bytes.dropWhile Ascii.isBlank

/-! ## Numbers -/

/-- A number as written: its digits, and its exponent if it has one. -/
structure Numeral where
  negative : Bool
  whole : List Nat
  fraction : List Nat
  exponent : Option Int
  deriving DecidableEq, Repr

/-- The number with the given decimal digits. -/
def ofDigits (digits : List Nat) : Nat :=
  digits.foldl (fun value digit => value * 10 + digit) 0

namespace Numeral

/-- The integer written by a number without fraction and exponent.  Minus zero
is not an integer. -/
def integer? (numeral : Numeral) : Option Int :=
  match numeral.fraction, numeral.exponent with
  | [], none =>
      let size := ofDigits numeral.whole
      if numeral.negative then
        if size = 0 then none else some (-(size : Int))
      else some size
  | _, _ => none

/-- The largest significand that digits are gathered into. -/
def significandLimit : Nat := 18446744073709551615

/-- Gathers whole digits while the significand fits; the digits from the first
that does not fit are only counted. -/
def gatherWhole : (significand : Nat) → List Nat → Nat × Nat
  | significand, [] => (significand, 0)
  | significand, digit :: digits =>
      if significand * 10 + digit ≤ significandLimit then
        gatherWhole (significand * 10 + digit) digits
      else (significand, digits.length + 1)

/-- Gathers fraction digits while the significand fits, and counts those
gathered; the others are dropped. -/
def gatherFraction : (significand : Nat) → List Nat → Nat × Nat
  | significand, [] => (significand, 0)
  | significand, digit :: digits =>
      if significand * 10 + digit ≤ significandLimit then
        let (gathered, count) := gatherFraction (significand * 10 + digit) digits
        (gathered, count + 1)
      else (significand, 0)

/-- `number * 10 ^ exponent`, rounded after each step: one factor of up to
`10 ^ 308` at a time, and at most two divisions before the result is zero.
`none` when the result is out of range. -/
def scale? (number : Binary64) (exponent : Int) : Option Binary64 :=
  if number.isZero then some number
  else if 308 < exponent then none
  else if 0 ≤ exponent then do
    number.scaleUp? (← Binary64.ofDecimal? false 1 exponent)
  else if -308 ≤ exponent then do
    number.scaleDown? (← Binary64.ofDecimal? false 1 (-exponent))
  else do
    let small ← number.scaleDown? (← Binary64.ofDecimal? false 1 308)
    if -616 ≤ exponent then
      small.scaleDown? (← Binary64.ofDecimal? false 1 (-exponent - 308))
    else some (Binary64.zero false)

/-- The double denoted by the number, or `none` when it is out of range.  The
digits beyond a 64-bit significand do not count. -/
def double? (numeral : Numeral) : Option Binary64 := do
  let (significand, dropped) := gatherWhole 0 numeral.whole
  let (significand, taken) := gatherFraction significand numeral.fraction
  let exponent := (dropped : Int) - taken + numeral.exponent.getD 0
  let number ← scale? (← Binary64.ofNat? significand) exponent
  some (if numeral.negative then number.negate else number)

/-- The value of the number: an integer where it is one that is kept exactly, a
double otherwise. -/
def value? (numeral : Numeral) : Option Json :=
  match numeral.integer? with
  | some value =>
      if isExact value then some (.integer value) else numeral.double?.map .double
  | none => numeral.double?.map .double

end Numeral

/-- The digits at the start of the bytes, and the rest. -/
def readDigits (bytes : Bytes) : List Nat × Bytes :=
  ((bytes.takeWhile Ascii.isDigit).map fun byte => byte.toNat - 0x30,
    bytes.dropWhile Ascii.isDigit)

/-- The whole part of a number: a single zero, or digits that start with another
digit. -/
def readWhole : Bytes → Option (List Nat × Bytes)
  | 0x30 :: rest => some ([0], rest)
  | bytes =>
      match readDigits bytes with
      | ([], _) => none
      | found => some found

/-- The fraction of a number, empty where there is no point. -/
def readFraction : Bytes → Option (List Nat × Bytes)
  | 0x2E :: rest =>
      match readDigits rest with
      | ([], _) => none
      | found => some found
  | bytes => some ([], bytes)

/-- The sign and digits after an exponent mark. -/
def readExponentDigits (negative : Bool) (bytes : Bytes) : Option (Int × Bytes) :=
  match readDigits bytes with
  | ([], _) => none
  | (digits, rest) =>
      let size : Int := ofDigits digits
      some (if negative then -size else size, rest)

/-- The exponent of a number, if it has one. -/
def readExponent : Bytes → Option (Option Int × Bytes)
  | mark :: rest =>
      if mark == 0x65 || mark == 0x45 then
        let found :=
          match rest with
          | 0x2B :: rest => readExponentDigits false rest
          | 0x2D :: rest => readExponentDigits true rest
          | rest => readExponentDigits false rest
        found.map fun (exponent, rest) => (some exponent, rest)
      else some (none, mark :: rest)
  | [] => some (none, [])

/-- A number at the start of the bytes, and the rest. -/
def readNumeral (bytes : Bytes) : Option (Numeral × Bytes) := do
  let (negative, rest) :=
    match bytes with
    | 0x2D :: rest => (true, rest)
    | bytes => (false, bytes)
  let (whole, rest) ← readWhole rest
  let (fraction, rest) ← readFraction rest
  let (exponent, rest) ← readExponent rest
  some (⟨negative, whole, fraction, exponent⟩, rest)

/-! ## Strings -/

/-- A piece of a string: a byte, or a 16-bit unit written as an escape. -/
inductive Piece where
  | byte (value : UInt8)
  | unit (value : Nat)
  deriving DecidableEq, Repr

/-- The byte that a one-letter escape stands for. -/
def escaped? : UInt8 → Option UInt8
  | 0x22 => some 0x22
  | 0x5C => some 0x5C
  | 0x2F => some 0x2F
  | 0x62 => some 0x08
  | 0x66 => some 0x0C
  | 0x6E => some 0x0A
  | 0x72 => some 0x0D
  | 0x74 => some 0x09
  | _ => none

/-- The unit written by four hexadecimal digits. -/
def unit? (a b c d : UInt8) : Option Nat := do
  some ((((← Ascii.hexValue? a) * 16 + (← Ascii.hexValue? b)) * 16 +
    (← Ascii.hexValue? c)) * 16 + (← Ascii.hexValue? d))

/-- The pieces up to the closing quote, and the rest.  Control characters do not
stand for themselves. -/
def readPieces : Bytes → Option (List Piece × Bytes)
  | [] => none
  | 0x22 :: rest => some ([], rest)
  | 0x5C :: 0x75 :: a :: b :: c :: d :: rest => do
      let unit ← unit? a b c d
      let (pieces, rest) ← readPieces rest
      some (.unit unit :: pieces, rest)
  | 0x5C :: letter :: rest => do
      let byte ← escaped? letter
      let (pieces, rest) ← readPieces rest
      some (.byte byte :: pieces, rest)
  | byte :: rest =>
      if byte < 0x20 then none
      else do
        let (pieces, rest) ← readPieces rest
        some (.byte byte :: pieces, rest)

/-- Whether a unit is the first of a pair. -/
def isHighUnit (unit : Nat) : Bool :=
  0xD800 ≤ unit && unit ≤ 0xDBFF

/-- Whether a unit is the second of a pair. -/
def isLowUnit (unit : Nat) : Bool :=
  0xDC00 ≤ unit && unit ≤ 0xDFFF

/-- The bytes that pieces denote.  A unit of a pair does not stand alone. -/
def piecesBytes? : List Piece → Option Bytes
  | [] => some []
  | .byte byte :: pieces => (piecesBytes? pieces).map (byte :: ·)
  | .unit unit :: pieces =>
      if isHighUnit unit then
        match pieces with
        | .unit low :: pieces =>
            if isLowUnit low then
              let scalar := 0x10000 + (unit - 0xD800) * 0x400 + (low - 0xDC00)
              (piecesBytes? pieces).map (String.utf8EncodeChar (Char.ofNat scalar) ++ ·)
            else none
        | _ => none
      else if isLowUnit unit then none
      else (piecesBytes? pieces).map (String.utf8EncodeChar (Char.ofNat unit) ++ ·)

/-- The text that pieces denote, if they denote one. -/
def piecesText? (pieces : List Piece) : Option String :=
  (piecesBytes? pieces).bind Bytes.toString?

/-! ## Values -/

/-- A JSON value as written. -/
inductive Written where
  | null
  | boolean (value : Bool)
  | number (numeral : Numeral)
  /-- A string, and the text it denotes if its bytes and escapes denote one. -/
  | string (text : Option String)
  | array (items : List Written)
  | object (fields : List (Option String × Written))
  deriving Inhabited

namespace Written

mutual

/-- A value at the start of the bytes, after blanks, and the rest. -/
def readValue : (fuel : Nat) → Bytes → Option (Written × Bytes)
  | 0, _ => none
  | fuel + 1, bytes =>
      match skipBlanks bytes with
      | 0x22 :: rest => do
          let (pieces, rest) ← readPieces rest
          some (.string (piecesText? pieces), rest)
      | 0x5B :: rest =>
          match skipBlanks rest with
          | 0x5D :: rest => some (.array [], rest)
          | rest => do
              let (items, rest) ← readItems fuel rest
              some (.array items, rest)
      | 0x7B :: rest =>
          match skipBlanks rest with
          | 0x7D :: rest => some (.object [], rest)
          | rest => do
              let (fields, rest) ← readFields fuel rest
              some (.object fields, rest)
      | 0x6E :: 0x75 :: 0x6C :: 0x6C :: rest => some (.null, rest)
      | 0x74 :: 0x72 :: 0x75 :: 0x65 :: rest => some (.boolean true, rest)
      | 0x66 :: 0x61 :: 0x6C :: 0x73 :: 0x65 :: rest => some (.boolean false, rest)
      | bytes => do
          let (numeral, rest) ← readNumeral bytes
          some (.number numeral, rest)

/-- The items of an array that is not empty, through its closing bracket. -/
def readItems : (fuel : Nat) → Bytes → Option (List Written × Bytes)
  | 0, _ => none
  | fuel + 1, bytes => do
      let (item, rest) ← readValue fuel bytes
      match skipBlanks rest with
      | 0x2C :: rest => do
          let (items, rest) ← readItems fuel rest
          some (item :: items, rest)
      | 0x5D :: rest => some ([item], rest)
      | _ => none

/-- The fields of an object that is not empty, through its closing brace. -/
def readFields : (fuel : Nat) → Bytes → Option (List (Option String × Written) × Bytes)
  | 0, _ => none
  | fuel + 1, bytes =>
      match skipBlanks bytes with
      | 0x22 :: rest => do
          let (pieces, rest) ← readPieces rest
          match skipBlanks rest with
          | 0x3A :: rest => do
              let (value, rest) ← readValue fuel rest
              let field := (piecesText? pieces, value)
              match skipBlanks rest with
              | 0x2C :: rest => do
                  let (fields, rest) ← readFields fuel rest
                  some (field :: fields, rest)
              | 0x7D :: rest => some ([field], rest)
              | _ => none
          | _ => none
      | _ => none

end

/-- The value that a whole byte string writes.  Reading a value takes at most
two steps for each byte, so the fuel always suffices. -/
def parse? (bytes : Bytes) : Option Written :=
  match readValue (2 * bytes.length + 2) bytes with
  | some (value, rest) => if (skipBlanks rest).isEmpty then some value else none
  | none => none

end Written

/-! ## Free-form values -/

/-- The deepest nesting of arrays and objects that is read, counted from the
outermost. -/
def nestingLimit : Nat := 127

mutual

/-- The value that a tree denotes, if it nests at most `room` deep and every
string and number in it has a value. -/
def ofWritten? : (room : Nat) → Written → Option Json
  | _, .null => some .null
  | _, .boolean value => some (.boolean value)
  | _, .number numeral => numeral.value?
  | _, .string text => text.map .string
  | 0, .array _ => none
  | room + 1, .array items => (itemsOfWritten? room items).map .array
  | 0, .object _ => none
  | room + 1, .object fields => (fieldsOfWritten? room fields).map ofFields

/-- The values of all items. -/
def itemsOfWritten? : (room : Nat) → List Written → Option (List Json)
  | _, [] => some []
  | room, item :: items => do
      let value ← ofWritten? room item
      let values ← itemsOfWritten? room items
      some (value :: values)

/-- The names and values of all fields. -/
def fieldsOfWritten? : (room : Nat) → List (Option String × Written) →
    Option (List (String × Json))
  | _, [] => some []
  | room, (name, value) :: fields => do
      let name ← name
      let value ← ofWritten? room value
      let fields ← fieldsOfWritten? room fields
      some ((name, value) :: fields)

end

/-- The free-form value that a whole byte string writes. -/
def parse? (bytes : Bytes) : Option Json :=
  (Written.parse? bytes).bind (ofWritten? nestingLimit)

end ChainFollower.Json
