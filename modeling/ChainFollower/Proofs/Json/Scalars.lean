import ChainFollower.Json.Form

/-!
# Reading scalars back

The printed text of a string or an integer is read back as that string or
integer, and reading stops at the end of the text.  A number has no closing
mark, so that what follows it must not go on with it.
-/

namespace ChainFollower

namespace Bytes

theorem ofString_append (left right : String) :
    ofString (left ++ right) = ofString left ++ ofString right := by
  simp [ofString]

theorem ofString_ofList (characters : List Char) :
    ofString (String.ofList characters) = characters.flatMap String.utf8EncodeChar := by
  simp [ofString, List.utf8Encode]

end Bytes

namespace Json

/-! ## Strings -/

/-- The control characters that have an escape of one letter. -/
def lettered : Bytes := [0x08, 0x09, 0x0A, 0x0C, 0x0D]

/-- The piece that the escape of a byte is read as. -/
def pieceOf (byte : UInt8) : Piece :=
  if byte < 0x20 ∧ byte ∉ lettered then .unit byte.toNat else .byte byte

theorem unit?_control (byte : UInt8) (control : byte < 0x20) :
    unit? 0x30 0x30 (hexDigit (byte / 16)) (hexDigit (byte % 16)) = some byte.toNat := by
  have small : ∀ number < 32, unit? 0x30 0x30 (hexDigit (UInt8.ofNat number / 16))
      (hexDigit (UInt8.ofNat number % 16)) = some number := by decide
  have bound : byte.toNat < 32 := UInt8.lt_iff_toNat_lt.1 control
  simpa using small byte.toNat bound

/-- An escape of one letter is read as the byte it stands for. -/
theorem readPieces_letter {letter byte : UInt8} (stands : escaped? letter = some byte)
    (rest : Bytes) :
    readPieces (0x5C :: letter :: rest) =
      (readPieces rest).map fun found => (.byte byte :: found.1, found.2) := by
  have notUnit : letter ≠ 0x75 := by
    rintro rfl
    simp [escaped?] at stands
  rw [readPieces]
  · simp only [stands]
    cases readPieces rest <;> rfl
  · intro a b c d tail equal
    exact absurd equal notUnit

/-- Reading undoes the escape of one byte. -/
theorem readPieces_escape (byte : UInt8) (rest : Bytes) :
    readPieces (escape byte ++ rest) =
      (readPieces rest).map fun found => (pieceOf byte :: found.1, found.2) := by
  unfold escape
  split
  case h_8 notQuote notBackslash notBack notTab notLine notForm notReturn =>
    split
    next control =>
      have unlettered : byte ∉ lettered := by
        simp only [lettered, List.mem_cons, List.not_mem_nil, or_false, not_or]
        exact ⟨notBack, notTab, notLine, notForm, notReturn⟩
      simp only [List.cons_append, List.nil_append, readPieces, unit?_control byte control,
        pieceOf, control, unlettered, not_false_eq_true, and_self, if_true]
      cases readPieces rest <;> rfl
    next plain =>
      simp only [List.cons_append, List.nil_append, pieceOf, plain, false_and, if_false]
      rw [readPieces]
      · simp only [plain, if_false]
        cases readPieces rest <;> rfl
      · exact notQuote
      · exact fun a b c d tail isEscape => absurd isEscape notBackslash
      · exact fun letter tail isEscape => absurd isEscape notBackslash
  all_goals exact readPieces_letter rfl rest

/-- Reading undoes the escapes of a whole text, through its closing quote. -/
theorem readPieces_flatMap_escape (bytes rest : Bytes) :
    readPieces (bytes.flatMap escape ++ 0x22 :: rest) = some (bytes.map pieceOf, rest) := by
  induction bytes with
  | nil => rfl
  | cons byte bytes ih =>
      rw [List.flatMap_cons, List.append_assoc, readPieces_escape, ih]
      rfl

theorem piecesBytes?_map_pieceOf (bytes : Bytes) :
    piecesBytes? (bytes.map pieceOf) = some bytes := by
  induction bytes with
  | nil => rfl
  | cons byte bytes ih =>
      by_cases control : byte < 0x20 ∧ byte ∉ lettered
      · have bound : byte.toNat < 32 := UInt8.lt_iff_toNat_lt.1 control.1
        have high : isHighUnit byte.toNat = false := by
          simp only [isHighUnit, Bool.and_eq_false_iff, decide_eq_false_iff_not]
          omega
        have low : isLowUnit byte.toNat = false := by
          simp only [isLowUnit, Bool.and_eq_false_iff, decide_eq_false_iff_not]
          omega
        have small : ∀ number < 32,
            String.utf8EncodeChar (Char.ofNat number) = [UInt8.ofNat number] := by decide
        have single : String.utf8EncodeChar (Char.ofNat byte.toNat) = [byte] := by
          rw [small byte.toNat bound, UInt8.ofNat_toNat]
        rw [List.map_cons, pieceOf, if_pos control, piecesBytes?.eq_def]
        simp [high, low, ih, single]
      · simp [pieceOf, control, piecesBytes?, ih]

/-- A printed string denotes the text it was printed from. -/
theorem piecesText?_map_pieceOf (text : String) :
    piecesText? ((Bytes.ofString text).map pieceOf) = some text := by
  simp [piecesText?, piecesBytes?_map_pieceOf]

/-! ## Integers -/

/-- The bytes of the decimal digits of a number. -/
def digitBytes (number : Nat) : Bytes :=
  (Nat.toDigits 10 number).map fun digit => UInt8.ofNat digit.toNat

/-- Bytes that do not go on with a number. -/
def EndsNumber (rest : Bytes) : Prop :=
  ∀ byte ∈ rest.head?, Ascii.isDigit byte = false ∧ byte ≠ 0x2E ∧ byte ≠ 0x65 ∧ byte ≠ 0x45

theorem utf8EncodeChar_digit {digit : Char} (isDigit : digit.isDigit) :
    String.utf8EncodeChar digit = [UInt8.ofNat digit.toNat] := by
  have small : ∀ number < 58,
      String.utf8EncodeChar (Char.ofNat number) = [UInt8.ofNat number] := by decide
  have bound : digit.toNat < 58 := by
    simp only [Char.isDigit, Bool.and_eq_true, decide_eq_true_eq] at isDigit
    have upper := UInt32.le_iff_toNat_le.1 isDigit.2
    exact Nat.lt_succ_of_le upper
  simpa [Char.ofNat_toNat] using small digit.toNat bound

/-- A decimal numeral is printed as its digits. -/
theorem ofString_repr (number : Nat) : Bytes.ofString number.repr = digitBytes number := by
  have digits : ∀ digit ∈ Nat.toDigits 10 number, digit.isDigit := fun digit member =>
    Nat.isDigit_of_mem_toDigits (by decide) (by decide) member
  rw [Nat.repr_eq_ofList_toDigits, Bytes.ofString_ofList, digitBytes]
  generalize Nat.toDigits 10 number = characters at digits
  induction characters with
  | nil => rfl
  | cons digit rest ih =>
      rw [List.flatMap_cons, utf8EncodeChar_digit (digits digit List.mem_cons_self),
        ih fun other member => digits other (List.mem_cons_of_mem _ member)]
      rfl

theorem toNat_digit {digit : Char} (isDigit : digit.isDigit) :
    (UInt8.ofNat digit.toNat).toNat = digit.toNat ∧ 48 ≤ digit.toNat ∧ digit.toNat ≤ 57 := by
  simp only [Char.isDigit, Bool.and_eq_true, decide_eq_true_eq] at isDigit
  have lower : 48 ≤ digit.toNat := UInt32.le_iff_toNat_le.1 isDigit.1
  have upper : digit.toNat ≤ 57 := UInt32.le_iff_toNat_le.1 isDigit.2
  refine ⟨?_, lower, upper⟩
  rw [UInt8.toNat_ofNat']
  omega

theorem isDigit_of_mem_digitBytes {number : Nat} {byte : UInt8}
    (member : byte ∈ digitBytes number) : Ascii.isDigit byte = true := by
  obtain ⟨digit, digitMember, rfl⟩ := List.mem_map.1 member
  have isDigit := Nat.isDigit_of_mem_toDigits (by decide) (by decide) digitMember
  obtain ⟨same, lower, upper⟩ := toNat_digit isDigit
  simp only [Ascii.isDigit, Bool.and_eq_true, decide_eq_true_eq, UInt8.le_iff_toNat_le, same]
  exact ⟨lower, upper⟩

/-- The digits of a number add up to it. -/
theorem ofDigits_digitBytes (number : Nat) :
    ofDigits ((digitBytes number).map fun byte => byte.toNat - 0x30) = number := by
  have digits : ∀ digit ∈ Nat.toDigits 10 number, digit.isDigit := fun digit member =>
    Nat.isDigit_of_mem_toDigits (by decide) (by decide) member
  have sums : ∀ (characters : List Char) (value : Nat), (∀ digit ∈ characters, digit.isDigit) →
      (characters.map fun digit => (UInt8.ofNat digit.toNat).toNat - 0x30).foldl
        (fun value digit => value * 10 + digit) value =
      Nat.ofDigitChars 10 characters value := by
    intro characters
    induction characters with
    | nil => intros; rfl
    | cons digit rest ih =>
        intro value all
        rw [List.map_cons, List.foldl_cons, Nat.ofDigitChars_cons,
          ih _ fun other member => all other (List.mem_cons_of_mem _ member),
          (toNat_digit (all digit List.mem_cons_self)).1, Nat.mul_comm]
        rfl
  rw [ofDigits, digitBytes, List.map_map]
  exact (sums _ 0 digits).trans Nat.ofDigitChars_ten_toDigits

/-- Only zero is printed with a leading zero. -/
theorem head_toDigits_ne_zero {number : Nat} (positive : 0 < number) :
    (Nat.toDigits 10 number).head? ≠ some '0' := by
  induction number using Nat.strongRecOn with
  | ind number ih =>
      by_cases small : number < 10
      · have all : ∀ digit < 10, 0 < digit → [digit.digitChar].head? ≠ some '0' := by decide
        rw [Nat.toDigits_of_lt_base small]
        exact all number small positive
      · have large : 10 ≤ number := Nat.le_of_not_lt small
        have shorter := ih (number / 10) (by omega) (by omega)
        rw [Nat.toDigits_of_base_le (by decide) large]
        cases first : Nat.toDigits 10 (number / 10) with
        | nil => exact absurd first Nat.toDigits_ne_nil
        | cons digit rest => simpa [first] using shorter

/-- Digits are read up to the end of the number. -/
theorem readDigits_digitBytes (number : Nat) {rest : Bytes} (ends : EndsNumber rest) :
    readDigits (digitBytes number ++ rest) =
      ((digitBytes number).map fun byte => byte.toNat - 0x30, rest) := by
  have stops : ∀ byte ∈ rest.head?, Ascii.isDigit byte = false := fun byte member =>
    (ends byte member).1
  have digits : ∀ byte ∈ digitBytes number, Ascii.isDigit byte = true := fun byte member =>
    isDigit_of_mem_digitBytes member
  rw [readDigits, List.takeWhile_append_of_pos digits, List.dropWhile_append_of_pos digits]
  cases rest with
  | nil => simp
  | cons byte rest => simp [stops byte rfl]

/-- A whole number is read as its digits. -/
theorem readWhole_digitBytes (number : Nat) {rest : Bytes} (ends : EndsNumber rest) :
    readWhole (digitBytes number ++ rest) =
      some ((digitBytes number).map fun byte => byte.toNat - 0x30, rest) := by
  rcases Nat.eq_zero_or_pos number with rfl | positive
  · rfl
  · have notZero := head_toDigits_ne_zero positive
    have read := readDigits_digitBytes number ends
    cases characters : Nat.toDigits 10 number with
    | nil => exact absurd characters Nat.toDigits_ne_nil
    | cons digit digits =>
        have bytes : digitBytes number =
            UInt8.ofNat digit.toNat :: digits.map fun digit => UInt8.ofNat digit.toNat := by
          rw [digitBytes, characters, List.map_cons]
        have isDigit : digit.isDigit := Nat.isDigit_of_mem_toDigits (b := 10) (n := number)
          (by decide) (by decide) (by rw [characters]; exact List.mem_cons_self)
        have different : UInt8.ofNat digit.toNat ≠ 0x30 := by
          intro equal
          have sameNumber := congrArg UInt8.toNat equal
          rw [(toNat_digit isDigit).1] at sameNumber
          apply notZero
          rw [characters, List.head?_cons, ← Char.ofNat_toNat digit, sameNumber]
          rfl
        rw [bytes] at read ⊢
        rw [List.cons_append] at read ⊢
        rw [readWhole]
        · rw [read]
          rfl
        · exact fun tail equal => different (List.cons.inj equal).1

/-- An integer is printed as its digits, after a sign if it is negative. -/
theorem writeInteger_eq (value : Int) :
    writeInteger value =
      if 0 ≤ value then digitBytes value.toNat else 0x2D :: digitBytes (-value).toNat := by
  have text : toString value = value.repr := rfl
  rw [writeInteger, text, Int.repr_eq_if]
  split
  · exact ofString_repr _
  · rw [Bytes.ofString_append, ofString_repr]
    rfl

/-- The numeral as which an integer is printed. -/
def numeralOf (value : Int) : Numeral :=
  ⟨value < 0, (digitBytes value.natAbs).map fun byte => byte.toNat - 0x30, [], none⟩

theorem readFraction_of_endsNumber {rest : Bytes} (ends : EndsNumber rest) :
    readFraction rest = some ([], rest) := by
  cases rest with
  | nil => rfl
  | cons byte rest =>
      rw [readFraction]
      exact fun tail equal => (ends byte rfl).2.1 (List.cons.inj equal).1

theorem readExponent_of_endsNumber {rest : Bytes} (ends : EndsNumber rest) :
    readExponent rest = some (none, rest) := by
  cases rest with
  | nil => rfl
  | cons byte rest =>
      obtain ⟨-, -, notLower, notUpper⟩ := ends byte rfl
      simp [readExponent, notLower, notUpper]

/-- A printed integer is read as its numeral. -/
theorem readNumeral_writeInteger (value : Int) {rest : Bytes} (ends : EndsNumber rest) :
    readNumeral (writeInteger value ++ rest) = some (numeralOf value, rest) := by
  rw [writeInteger_eq]
  split
  next nonnegative =>
    have size : value.toNat = value.natAbs := by omega
    have sign : decide (value < 0) = false := by simpa using nonnegative
    have unsigned : ∀ tail, digitBytes value.natAbs ++ rest ≠ 0x2D :: tail := by
      intro tail equal
      cases bytes : digitBytes value.natAbs with
      | nil => exact Nat.toDigits_ne_nil (List.map_eq_nil_iff.1 bytes)
      | cons byte digits =>
          have isDigit : Ascii.isDigit byte = true :=
            isDigit_of_mem_digitBytes (bytes ▸ List.mem_cons_self)
          rw [bytes] at equal
          rw [(List.cons.inj equal).1] at isDigit
          exact absurd isDigit (by decide)
    rw [size, readNumeral]
    · simp [readWhole_digitBytes _ ends, readFraction_of_endsNumber ends,
        readExponent_of_endsNumber ends, numeralOf, sign]
    · exact unsigned
  next negative =>
    have size : (-value).toNat = value.natAbs := by omega
    have sign : decide (value < 0) = true := by simpa using negative
    simp [readNumeral, size, readWhole_digitBytes _ ends, readFraction_of_endsNumber ends,
      readExponent_of_endsNumber ends, numeralOf, sign]

/-- The numeral of an integer denotes it. -/
theorem integer?_numeralOf (value : Int) : (numeralOf value).integer? = some value := by
  simp only [numeralOf, Numeral.integer?, ofDigits_digitBytes]
  split
  next negative =>
    have nonzero : value.natAbs ≠ 0 := by
      simp only [decide_eq_true_eq] at negative
      omega
    rw [if_neg nonzero]
    simp only [decide_eq_true_eq] at negative
    congr 1
    omega
  next notNegative =>
    simp only [decide_eq_true_eq] at notNegative
    congr 1
    omega

end Json

end ChainFollower
