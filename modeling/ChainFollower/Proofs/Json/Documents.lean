import Mathlib.Data.List.Forall2
import ChainFollower.Block.Form
import ChainFollower.Proofs.Json.Scalars

/-!
# Reading documents back

A text spells a tree when the reader finds that tree wherever the text stands.
Printed scalars spell scalars, and printed arrays and objects spell what their
parts spell.  From this it follows that the identifier of a block survives its
JSON form.
-/

namespace ChainFollower.Json

open Written (readValue readItems readFields)

/-- The reader finds a tree wherever the text stands, with two steps of fuel for
each byte.  The text does not begin with a blank or a closing bracket, which the
reader of an array looks for first. -/
structure Spells (text : Bytes) (written : Written) : Prop where
  starts : ∃ first tail, text = first :: tail ∧ Ascii.isBlank first = false ∧ first ≠ 0x5D
  reads : ∀ fuel rest, 2 * text.length ≤ fuel → EndsNumber rest →
    readValue fuel (text ++ rest) = some (written, rest)

@[simp] theorem skipBlanks_of_not_blank {first : UInt8} (visible : Ascii.isBlank first = false)
    (tail : Bytes) : skipBlanks (first :: tail) = first :: tail := by
  simp [skipBlanks, visible]

theorem endsNumber_nil : EndsNumber [] := by
  intro byte member
  simp at member

theorem endsNumber_comma (rest : Bytes) : EndsNumber (0x2C :: rest) := by
  intro byte member
  cases member
  decide

theorem endsNumber_bracket (rest : Bytes) : EndsNumber (0x5D :: rest) := by
  intro byte member
  cases member
  decide

theorem endsNumber_brace (rest : Bytes) : EndsNumber (0x7D :: rest) := by
  intro byte member
  cases member
  decide

/-! ## Scalars -/

theorem spells_string (text : String) :
    Spells (writeString text) (.string (some text)) where
  starts := ⟨0x22, _, rfl, by decide, by decide⟩
  reads := by
    intro fuel rest enough _
    obtain ⟨fuel, rfl⟩ : ∃ less, fuel = less + 1 := by
      refine ⟨fuel - 1, ?_⟩
      simp only [writeString, List.length_append, List.length_cons] at enough
      omega
    have pieces := readPieces_flatMap_escape (Bytes.ofString text) rest
    simp only [writeString, List.append_assoc, List.cons_append, List.nil_append]
    rw [readValue, skipBlanks_of_not_blank (by decide)]
    simp [pieces, piecesText?_map_pieceOf]

/-- The blanks, the closing bracket, and what other values than numbers begin with. -/
def otherStarts : Bytes :=
  [0x20, 0x09, 0x0A, 0x0D, 0x5D, 0x22, 0x5B, 0x7B, 0x6E, 0x74, 0x66]

/-- A byte that begins an integer begins nothing else. -/
theorem notMem_otherStarts {first : UInt8}
    (begins : first = 0x2D ∨ Ascii.isDigit first = true) : first ∉ otherStarts := by
  intro member
  have none : ∀ other ∈ otherStarts, ¬(other = 0x2D ∨ Ascii.isDigit other = true) := by
    decide +kernel
  exact none first member begins

theorem isBlank_of_notMem_otherStarts {first : UInt8} (other : first ∉ otherStarts) :
    Ascii.isBlank first = false := by
  simp only [otherStarts, List.mem_cons, List.not_mem_nil, or_false, not_or] at other
  simp [Ascii.isBlank, other]

theorem readValue_number {first : UInt8} (other : first ∉ otherStarts)
    (fuel : Nat) (tail : Bytes) :
    readValue (fuel + 1) (first :: tail) =
      (readNumeral (first :: tail)).map fun found => (.number found.1, found.2) := by
  rw [readValue, skipBlanks_of_not_blank (isBlank_of_notMem_otherStarts other)]
  simp only [otherStarts, List.mem_cons, List.not_mem_nil, or_false, not_or] at other
  split
  case h_7 =>
    cases readNumeral (first :: tail) <;> rfl
  all_goals simp_all

/-- What is read as a number is read so wherever it stands. -/
theorem spells_numeral {text : Bytes} {numeral : Numeral}
    (begins : ∃ first tail, text = first :: tail ∧ first ∉ otherStarts)
    (read : ∀ rest, EndsNumber rest → readNumeral (text ++ rest) = some (numeral, rest)) :
    Spells text (.number numeral) := by
  obtain ⟨first, tail, rfl, other⟩ := begins
  refine ⟨⟨first, tail, rfl, isBlank_of_notMem_otherStarts other, ?_⟩, ?_⟩
  · rintro rfl
    exact absurd other (by decide)
  · intro fuel rest enough ends
    obtain ⟨fuel, rfl⟩ : ∃ less, fuel = less + 1 := by
      refine ⟨fuel - 1, ?_⟩
      rw [List.length_cons] at enough
      omega
    have found := read rest ends
    rw [List.cons_append] at found ⊢
    rw [readValue_number other, found]
    rfl

theorem spells_integer (value : Int) :
    Spells (writeInteger value) (.number (numeralOf value)) := by
  refine spells_numeral ?_ fun rest ends => readNumeral_writeInteger value ends
  rw [writeInteger_eq]
  split
  · cases bytes : digitBytes value.toNat with
    | nil => exact absurd (List.map_eq_nil_iff.1 bytes) Nat.toDigits_ne_nil
    | cons byte tail =>
        exact ⟨byte, tail, rfl, notMem_otherStarts
          (Or.inr (isDigit_of_mem_digitBytes (bytes ▸ List.mem_cons_self)))⟩
  · exact ⟨0x2D, _, rfl, by decide⟩

/-! ## Arrays and objects -/

/-- The items of an array are read one after another, each with the fuel that is
left. -/
theorem readItems_joinComma {texts : List Bytes} {items : List Written}
    (parts : List.Forall₂ Spells texts items) (filled : texts ≠ []) (rest : Bytes) (fuel : Nat)
    (enough : 2 * (joinComma texts).length + 1 ≤ fuel) :
    readItems fuel (joinComma texts ++ 0x5D :: rest) = some (items, rest) := by
  induction parts generalizing fuel with
  | nil => exact absurd rfl filled
  | @cons text item texts items spells others ih =>
      obtain ⟨fuel, rfl⟩ : ∃ less, fuel = less + 1 := ⟨fuel - 1, by omega⟩
      cases others with
      | nil =>
          have read := spells.reads fuel (0x5D :: rest) (by simpa [joinComma] using enough)
            (endsNumber_bracket rest)
          rw [joinComma, readItems, read]
          rfl
      | cons next later =>
          simp only [joinComma, List.length_append, List.length_cons] at enough ih
          have read := fun rest => spells.reads fuel _ (by omega) (endsNumber_comma rest)
          have readLater := ih (by simp) fuel (by omega)
          simp only [joinComma, List.append_assoc, List.cons_append] at readLater ⊢
          rw [readItems, read]
          simp only [Option.bind_eq_bind, Option.bind_some]
          rw [skipBlanks_of_not_blank (by decide)]
          simp [readLater]

theorem spells_array {texts : List Bytes} {items : List Written}
    (parts : List.Forall₂ Spells texts items) : Spells (writeArray texts) (.array items) where
  starts := ⟨0x5B, _, rfl, by decide, by decide⟩
  reads := by
    intro fuel rest enough _
    simp only [writeArray, List.length_append, List.length_cons, List.length_nil] at enough
    obtain ⟨fuel, rfl⟩ : ∃ less, fuel = less + 1 := ⟨fuel - 1, by omega⟩
    simp only [writeArray, List.append_assoc, List.cons_append, List.nil_append]
    rw [readValue, skipBlanks_of_not_blank (by decide)]
    cases parts with
    | nil => rfl
    | @cons text item texts items spells others =>
        have read := readItems_joinComma (.cons spells others) (by simp) rest fuel (by omega)
        obtain ⟨first, tail, bytes, visible, notBracket⟩ := spells.starts
        obtain ⟨later, joined⟩ : ∃ later, joinComma (text :: texts) = first :: later := by
          cases texts <;> simp [joinComma, bytes]
        rw [joined, List.cons_append] at read ⊢
        simp only [skipBlanks_of_not_blank visible]
        split
        next equal => exact absurd (List.cons.inj equal).1 notBracket
        next =>
          rw [read]
          rfl

/-- The text of a field of an object. -/
def fieldText (field : String × Bytes) : Bytes :=
  writeString field.1 ++ 0x3A :: field.2

/-- A field is spelled by its name and the text of its value. -/
def SpellsField (field : String × Bytes) (read : Option String × Written) : Prop :=
  read.1 = some field.1 ∧ Spells field.2 read.2

theorem writeObject_eq (fields : List (String × Bytes)) :
    writeObject fields = 0x7B :: joinComma (fields.map fieldText) ++ [0x7D] := rfl

/-- A field in front of others is read, and the reader goes on behind its comma. -/
theorem readFields_cons {text : Bytes} {value : Written} (spells : Spells text value)
    (name : String) (rest : Bytes) {fuel : Nat} (enough : 2 * text.length ≤ fuel) :
    readFields (fuel + 1) (fieldText (name, text) ++ 0x2C :: rest) =
      (readFields fuel rest).map fun found => ((some name, value) :: found.1, found.2) := by
  have piecesName := fun rest => readPieces_flatMap_escape (Bytes.ofString name) rest
  have read := spells.reads fuel (0x2C :: rest) enough (endsNumber_comma rest)
  simp only [fieldText, writeString, List.cons_append, List.append_assoc, List.nil_append]
  rw [readFields, skipBlanks_of_not_blank (by decide)]
  simp only [piecesName, Option.bind_eq_bind, Option.bind_some]
  rw [skipBlanks_of_not_blank (by decide)]
  simp only [read, Option.bind_some]
  rw [skipBlanks_of_not_blank (by decide)]
  simp only [piecesText?_map_pieceOf]
  cases readFields fuel rest <;> rfl

/-- The fields of an object are read one after another, each with the fuel that is
left. -/
theorem readFields_joinComma {fields : List (String × Bytes)}
    {reads : List (Option String × Written)} (parts : List.Forall₂ SpellsField fields reads)
    (filled : fields ≠ []) (rest : Bytes) (fuel : Nat)
    (enough : 2 * (joinComma (fields.map fieldText)).length + 1 ≤ fuel) :
    readFields fuel (joinComma (fields.map fieldText) ++ 0x7D :: rest) = some (reads, rest) := by
  induction parts generalizing fuel with
  | nil => exact absurd rfl filled
  | @cons field found fields reads spells others ih =>
      obtain ⟨fuel, rfl⟩ : ∃ less, fuel = less + 1 := ⟨fuel - 1, by omega⟩
      obtain ⟨name, text⟩ := field
      obtain ⟨foundName, value⟩ := found
      obtain ⟨sameName, spellsValue⟩ := spells
      simp only at sameName spellsValue
      subst sameName
      cases others with
      | nil =>
          have piecesName := fun rest => readPieces_flatMap_escape (Bytes.ofString name) rest
          simp only [List.map_cons, List.map_nil, joinComma, fieldText, writeString,
            List.length_append, List.length_cons] at enough
          have read := spellsValue.reads fuel (0x7D :: rest) (by omega) (endsNumber_brace rest)
          simp only [List.map_cons, List.map_nil, joinComma, fieldText, writeString,
            List.cons_append, List.append_assoc, List.nil_append]
          rw [readFields, skipBlanks_of_not_blank (by decide)]
          simp only [piecesName, Option.bind_eq_bind, Option.bind_some]
          rw [skipBlanks_of_not_blank (by decide)]
          simp only [read, Option.bind_some]
          rw [skipBlanks_of_not_blank (by decide)]
          simp [piecesText?_map_pieceOf]
      | cons next later =>
          simp only [List.map_cons, joinComma, fieldText, List.length_append,
            List.length_cons] at enough
          have readLater := ih (by simp) fuel (by simp only [List.map_cons, fieldText]; omega)
          rw [List.map_cons, List.map_cons, joinComma, List.append_assoc, List.cons_append,
            readFields_cons spellsValue name _ (by omega), ← List.map_cons, readLater,
            Option.map_some]

/-- The fields at the beginning of an object are read, whatever follows. -/
theorem exists_readFields {known more : List (String × Bytes)}
    {reads fields : List (Option String × Written)} (parts : List.Forall₂ SpellsField known reads)
    (followed : more ≠ []) {rest left : Bytes} {fuel : Nat}
    (enough : 2 * (joinComma ((known ++ more).map fieldText)).length + 1 ≤ fuel)
    (read : readFields fuel (joinComma ((known ++ more).map fieldText) ++ 0x7D :: rest) =
      some (fields, left)) : ∃ others, fields = reads ++ others := by
  induction parts generalizing fuel fields with
  | nil => exact ⟨fields, rfl⟩
  | @cons field found known reads spells _ ih =>
      obtain ⟨fuel, rfl⟩ : ∃ less, fuel = less + 1 := ⟨fuel - 1, by omega⟩
      obtain ⟨name, text⟩ := field
      obtain ⟨foundName, value⟩ := found
      obtain ⟨sameName, spellsValue⟩ := spells
      simp only at sameName spellsValue
      subst sameName
      obtain ⟨next, later, split⟩ := List.exists_cons_of_ne_nil
        (List.append_ne_nil_of_right_ne_nil known followed)
      rw [List.cons_append, split, List.map_cons, List.map_cons, joinComma, ← List.map_cons,
        ← split] at read enough
      simp only [fieldText, List.length_append, List.length_cons] at enough
      rw [List.append_assoc, List.cons_append, readFields_cons spellsValue name _ (by omega),
        Option.map_eq_some_iff] at read
      obtain ⟨_, readLater, same⟩ := read
      cases same
      have shorter : 2 * (joinComma ((known ++ more).map fieldText)).length + 1 ≤ fuel := by omega
      obtain ⟨others, same⟩ := ih shorter readLater
      exact ⟨others, congrArg ((some name, value) :: ·) same⟩

/-- An object with fields is read by reading them. -/
theorem readValue_object {fields : List (String × Bytes)} (filled : fields ≠ []) (rest : Bytes)
    (fuel : Nat) : readValue (fuel + 1) (writeObject fields ++ rest) =
      (readFields fuel (joinComma (fields.map fieldText) ++ 0x7D :: rest)).map fun found =>
        (.object found.1, found.2) := by
  obtain ⟨field, others, rfl⟩ := List.exists_cons_of_ne_nil filled
  obtain ⟨later, joined⟩ :
      ∃ later, joinComma ((field :: others).map fieldText) = 0x22 :: later := by
    cases others <;> simp [joinComma, fieldText, writeString]
  simp only [writeObject_eq, List.append_assoc, List.cons_append, List.nil_append]
  rw [readValue, skipBlanks_of_not_blank (by decide), joined, List.cons_append]
  simp only [skipBlanks_of_not_blank (show Ascii.isBlank 0x22 = false by decide)]
  split
  next equal => exact absurd (List.cons.inj equal).1 (by decide)
  next => cases readFields fuel (0x22 :: (later ++ 0x7D :: rest)) <;> rfl

theorem spells_object {fields : List (String × Bytes)} {reads : List (Option String × Written)}
    (parts : List.Forall₂ SpellsField fields reads) :
    Spells (writeObject fields) (.object reads) where
  starts := ⟨0x7B, _, rfl, by decide, by decide⟩
  reads := by
    intro fuel rest enough _
    have length : (writeObject fields).length =
        (joinComma (fields.map fieldText)).length + 2 := by
      simp [writeObject_eq]
    obtain ⟨fuel, rfl⟩ : ∃ less, fuel = less + 1 := ⟨fuel - 1, by omega⟩
    cases parts with
    | nil =>
        simp only [writeObject_eq, List.append_assoc, List.cons_append, List.nil_append]
        rw [readValue, skipBlanks_of_not_blank (by decide)]
        rfl
    | @cons field found fields reads spells others =>
        rw [readValue_object (List.cons_ne_nil _ _),
          readFields_joinComma (.cons spells others) (List.cons_ne_nil _ _) rest fuel (by omega)]
        rfl

/-- A whole text that spells a tree is read as that tree. -/
theorem parse?_of_spells {text : Bytes} {written : Written} (spells : Spells text written) :
    Written.parse? text = some written := by
  have read := spells.reads (2 * text.length + 2) [] (by omega) endsNumber_nil
  rw [List.append_nil] at read
  rw [Written.parse?, read]
  rfl

/-! ## Identifiers and blocks -/

theorem read?_integer (value : Int64) (room : Nat) :
    Form.read? room (.number (numeralOf value.toInt)) = some value := by
  have lower : Int64.minValue.toInt ≤ value.toInt := value.le_toInt
  have upper := value.toInt_le
  simp only [Form.read?, Written.integerWithin?, integer?_numeralOf, Option.bind_eq_bind,
    Option.bind_some]
  rw [if_pos ⟨lower, upper⟩, Option.map_some, Int64.ofInt_toInt]

/-- The tree of an identifier. -/
def treeOfId (id : BlockId) : Written :=
  .object [(some "index", .number (numeralOf id.index.toInt)),
    (some "hash", .string (some id.hash))]

theorem spells_blockId (id : BlockId) : Spells (encode id) (treeOfId id) :=
  spells_object (.cons ⟨rfl, spells_integer _⟩ (.cons ⟨rfl, spells_string _⟩ .nil))

theorem read?_treeOfId (id : BlockId) (room : Nat) :
    Form.read? (room + 1) (treeOfId id) = some id := by
  have readIndex : Form.read? room (.number (numeralOf id.index.toInt)) = some id.index :=
    read?_integer id.index room
  have readHash : Form.read? room (.string (some id.hash)) = some id.hash := rfl
  have slots : Written.slots? ["index", "hash"] (treeOfId id) =
      some [some (.number (numeralOf id.index.toInt)), some (.string (some id.hash))] := rfl
  change Written.record? ["index", "hash"] _ (room + 1) _ = _
  rw [Written.record?, slots, Option.bind_some]
  simp only [required?, Option.bind_some, readIndex, readHash]
  rfl

/-- Every identifier survives its JSON form. -/
@[simp] theorem decode?_encode_blockId (id : BlockId) : decode? (encode id) = some id := by
  rw [decode?, parse?_of_spells (spells_blockId id), Option.bind_some]
  exact read?_treeOfId id 126

/-- A block that carries nothing survives its JSON form. -/
theorem decode?_encode_bareBlock (id parent : BlockId) (timestamp : Int64) :
    decode? (encode (⟨id, parent, timestamp, [], none⟩ : Block)) =
      some (⟨id, parent, timestamp, [], none⟩ : Block) := by
  have spells : Spells (encode (⟨id, parent, timestamp, [], none⟩ : Block))
      (.object [(some "block_identifier", treeOfId id),
        (some "parent_block_identifier", treeOfId parent),
        (some "timestamp", .number (numeralOf timestamp.toInt)),
        (some "transactions", .array [])]) :=
    spells_object (.cons ⟨rfl, spells_blockId id⟩ (.cons ⟨rfl, spells_blockId parent⟩
      (.cons ⟨rfl, spells_integer _⟩ (.cons ⟨rfl, spells_array .nil⟩ .nil))))
  have readId : Form.read? 126 (treeOfId id) = some id := read?_treeOfId id 125
  have readParent : Form.read? 126 (treeOfId parent) = some parent := read?_treeOfId parent 125
  have readTime : Form.read? 126 (.number (numeralOf timestamp.toInt)) = some timestamp :=
    read?_integer timestamp 126
  have readNone : Form.read? 126 (.array []) = some ([] : List Transaction) := rfl
  rw [decode?, parse?_of_spells spells, Option.bind_some]
  change Written.record? ["block_identifier", "parent_block_identifier", "timestamp",
    "transactions", "metadata"] _ (126 + 1) _ = _
  rw [Written.record?]
  have slots : Written.slots? ["block_identifier", "parent_block_identifier", "timestamp",
      "transactions", "metadata"] (.object [(some "block_identifier", treeOfId id),
        (some "parent_block_identifier", treeOfId parent),
        (some "timestamp", .number (numeralOf timestamp.toInt)),
        (some "transactions", .array [])]) =
      some [some (treeOfId id), some (treeOfId parent),
        some (.number (numeralOf timestamp.toInt)), some (.array []), none] := rfl
  rw [slots, Option.bind_some]
  simp only [required?, defaulted?, optional?, Option.bind_some, readId, readParent, readTime,
    readNone]
  rfl

end ChainFollower.Json
