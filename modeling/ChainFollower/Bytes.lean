/-!
# Byte strings

Keys, stored values and wire bodies are byte strings.  This module relates them
to text (UTF-8) and to fixed-width big-endian words.
-/

namespace ChainFollower

/-- A byte string, ordered lexicographically by its bytes. -/
abbrev Bytes := List UInt8

namespace Bytes

/-- The UTF-8 bytes of a text. -/
def ofString (text : String) : Bytes :=
  text.toByteArray.data.toList

/-- The text whose UTF-8 bytes these are, if they are well-formed UTF-8. -/
def toString? (bytes : Bytes) : Option String :=
  String.fromUTF8? ⟨bytes.toArray⟩

@[simp] theorem toString?_ofString (text : String) :
    toString? (ofString text) = some text := by
  have same : (⟨(ofString text).toArray⟩ : ByteArray) = text.toByteArray := by
    simp [ofString]
  rw [toString?, same, String.fromUTF8?, dif_pos text.isValidUTF8]
  rfl

/-- Distinct texts have distinct bytes. -/
theorem ofString_injective {left right : String}
    (equal : ofString left = ofString right) : left = right := by
  have read := toString?_ofString left
  rw [equal, toString?_ofString] at read
  exact (Option.some.inj read).symm

/-- Whether `start` is an initial segment of `bytes`. -/
def startsWith (bytes start : Bytes) : Bool :=
  start.isPrefixOf bytes

/-! ## Hexadecimal texts -/

/-- The digits of hexadecimal texts. -/
def hexDigits : List Char := "0123456789abcdef".toList

/-- The hexadecimal text of a byte string, two lowercase digits for each byte. -/
def toHex (bytes : Bytes) : String :=
  String.ofList (bytes.flatMap fun byte =>
    [hexDigits.getD (byte.toNat / 16) '0', hexDigits.getD (byte.toNat % 16) '0'])

/-- The byte string of hexadecimal digits, if they are complete. -/
def ofHexDigits? : List Char → Option Bytes
  | [] => some []
  | [_] => none
  | high :: low :: rest => do
      let high ← hexDigits.idxOf? high
      let low ← hexDigits.idxOf? low
      return UInt8.ofNat (high * 16 + low) :: (← ofHexDigits? rest)

/-- The byte string that a hexadecimal text writes. -/
def ofHex? (text : String) : Option Bytes :=
  ofHexDigits? text.toList

/-! ## Big-endian words -/

/-- The last `width` base-256 digits of a number, most significant first. -/
def bigEndian : (width : Nat) → Nat → Bytes
  | 0, _ => []
  | width + 1, number => bigEndian width (number / 256) ++ [UInt8.ofNat number]

/-- The number whose base-256 digits these are, most significant first. -/
def toNat (bytes : Bytes) : Nat :=
  bytes.foldl (fun value byte => value * 256 + byte.toNat) 0

@[simp] theorem length_bigEndian (width number : Nat) :
    (bigEndian width number).length = width := by
  induction width generalizing number with
  | zero => rfl
  | succ width ih => simp [bigEndian, ih]

/-! ## Lenient decoding -/

/-- Whether a byte continues a multi-byte character. -/
def isContinuation (byte : UInt8) : Bool :=
  0x80 ≤ byte && byte ≤ 0xBF

/-- For a byte that starts a multi-byte character: how many bytes follow it,
and the least and greatest value of the first of them. -/
def leadRange? (lead : UInt8) : Option (Nat × UInt8 × UInt8) :=
  if 0xC2 ≤ lead && lead ≤ 0xDF then some (1, 0x80, 0xBF)
  else if lead == 0xE0 then some (2, 0xA0, 0xBF)
  else if lead == 0xED then some (2, 0x80, 0x9F)
  else if 0xE1 ≤ lead && lead ≤ 0xEF then some (2, 0x80, 0xBF)
  else if lead == 0xF0 then some (3, 0x90, 0xBF)
  else if 0xF1 ≤ lead && lead ≤ 0xF3 then some (3, 0x80, 0xBF)
  else if lead == 0xF4 then some (3, 0x80, 0x8F)
  else none

/-- The longest run of bytes after `lead` that could belong to its character,
and whether that run completes the character. -/
def tailOf (lead : UInt8) (rest : Bytes) : Bytes × Bool :=
  match leadRange? lead with
  | none => ([], false)
  | some (count, low, high) =>
      match rest with
      | [] => ([], false)
      | first :: more =>
          if low ≤ first && first ≤ high then
            let tail := first :: (more.take (count - 1)).takeWhile isContinuation
            (tail, tail.length == count)
          else
            ([], false)

/-- The UTF-8 bytes of the replacement character U+FFFD. -/
def replacement : Bytes := [0xEF, 0xBF, 0xBD]

/-- The bytes with every maximal ill-formed part replaced by U+FFFD.  Each step
consumes at least one byte, so `fuel` as large as the length suffices. -/
def repairWith : Nat → Bytes → Bytes
  | 0, _ => []
  | _, [] => []
  | fuel + 1, byte :: rest =>
      if byte < 0x80 then
        byte :: repairWith fuel rest
      else
        let (tail, complete) := tailOf byte rest
        let shown := if complete then byte :: tail else replacement
        shown ++ repairWith fuel (rest.drop tail.length)

/-- The text of the bytes, with U+FFFD in place of each ill-formed part. -/
def toStringLossy (bytes : Bytes) : String :=
  (toString? (repairWith bytes.length bytes)).getD ""

end Bytes

end ChainFollower
