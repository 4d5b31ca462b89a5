import ChainFollower.Proofs.Json.Documents

/-!
# Where a block stands

The text of a block begins with its identifier and its parent's.  Whatever the rest of it is read
as, if it is read at all, the block that is read has these two; and so has every block of the same
text.
-/

namespace ChainFollower.Json

/-- What is read from the text of an object has the fields at its beginning, whatever follows. -/
theorem exists_of_parse? {known more : List (String × Bytes)}
    {reads : List (Option String × Written)} (parts : List.Forall₂ SpellsField known reads)
    (followed : more ≠ []) {written : Written}
    (parsed : Written.parse? (writeObject (known ++ more)) = some written) :
    ∃ others, written = .object (reads ++ others) := by
  have enough : 2 * (joinComma ((known ++ more).map fieldText)).length + 1 ≤
      2 * (writeObject (known ++ more)).length + 1 := by
    simp only [writeObject_eq, List.length_append, List.length_cons]
    omega
  have read := readValue_object (List.append_ne_nil_of_right_ne_nil known followed) []
    (2 * (writeObject (known ++ more)).length + 1)
  rw [List.append_nil] at read
  rw [Written.parse?, read] at parsed
  cases found : Written.readFields (2 * (writeObject (known ++ more)).length + 1)
      (joinComma ((known ++ more).map fieldText) ++ [0x7D]) with
  | none =>
      rw [found] at parsed
      cases parsed
  | some result =>
      obtain ⟨others, same⟩ := exists_readFields parts followed enough found
      rw [found, Option.map_some] at parsed
      dsimp only at parsed
      split at parsed
      · cases parsed
        exact ⟨others, congrArg Written.object same⟩
      · cases parsed

/-- A name at the beginning of an object stands for its first value, or the name repeats. -/
theorem eq_of_uniqueField?_cons {name : String} {value : Written}
    {fields : List (Option String × Written)} {slot : Option Written}
    (unique : Written.uniqueField? name ((some name, value) :: fields) = some slot) :
    slot = some value := by
  have kept : (((some name, value) :: fields).filter fun field => field.1 == some name) =
      (some name, value) :: fields.filter fun field => field.1 == some name :=
    List.filter_cons_of_pos (beq_self_eq_true (some name))
  rw [Written.uniqueField?, kept] at unique
  cases others : fields.filter fun field => field.1 == some name with
  | nil =>
      rw [others] at unique
      exact (Option.some.inj unique).symm
  | cons other rest =>
      rw [others] at unique
      cases unique

/-- Fields of other names in front do not matter. -/
theorem uniqueField?_cons_of_ne {name other : String} (different : other ≠ name) (value : Written)
    (fields : List (Option String × Written)) :
    Written.uniqueField? name ((some other, value) :: fields) =
      Written.uniqueField? name fields := by
  rw [Written.uniqueField?, List.filter_cons_of_neg, Written.uniqueField?]
  simpa using different

/-- The names of the fields of a block behind its identifier and its parent's. -/
def laterNames : List String := ["timestamp", "transactions", "metadata"]

/-- What stands for an identifier and a parent at the beginning of an object is found. -/
theorem exists_slots {id parent : BlockId} {others : List (Option String × Written)}
    {slots : List (Option Written)}
    (found : Written.slots? ("block_identifier" :: "parent_block_identifier" :: laterNames)
      (.object ((some "block_identifier", treeOfId id) ::
        (some "parent_block_identifier", treeOfId parent) :: others)) = some slots) :
    ∃ later, slots = some (treeOfId id) :: some (treeOfId parent) :: later := by
  rw [Written.slots?] at found
  split at found
  next =>
    rw [List.mapM_cons, List.mapM_cons] at found
    obtain ⟨first, foundFirst, found⟩ := Option.bind_eq_some_iff.1 found
    obtain ⟨rest, foundRest, found⟩ := Option.bind_eq_some_iff.1 found
    obtain ⟨second, foundSecond, foundRest⟩ := Option.bind_eq_some_iff.1 foundRest
    obtain ⟨later, -, foundRest⟩ := Option.bind_eq_some_iff.1 foundRest
    cases found
    cases foundRest
    rw [uniqueField?_cons_of_ne (by decide)] at foundSecond
    rw [eq_of_uniqueField?_cons foundFirst, eq_of_uniqueField?_cons foundSecond]
    exact ⟨later, rfl⟩
  next => cases found

/-- A block that is read from the text of a block has its identifier and its parent's. -/
theorem bearings_of_decode? {block found : Block} (decoded : decode? (encode block) = some found) :
    found.id = block.id ∧ found.parent = block.parent := by
  have text : encode block = writeObject
      ([("block_identifier", Form.write block.id),
        ("parent_block_identifier", Form.write block.parent)] ++
      (field "timestamp" block.timestamp ++ field "transactions" block.transactions ++
        optionalField "metadata" block.metadata)) := by
    simp only [encode, Form.write, field, List.cons_append, List.nil_append]
  have parts : List.Forall₂ SpellsField
      [("block_identifier", Form.write block.id),
        ("parent_block_identifier", Form.write block.parent)]
      [(some "block_identifier", treeOfId block.id),
        (some "parent_block_identifier", treeOfId block.parent)] :=
    .cons ⟨rfl, spells_blockId _⟩ (.cons ⟨rfl, spells_blockId _⟩ .nil)
  rw [decode?, text] at decoded
  obtain ⟨written, parsed, read⟩ := Option.bind_eq_some_iff.1 decoded
  obtain ⟨others, rfl⟩ := exists_of_parse? parts (List.cons_ne_nil _ _) parsed
  obtain ⟨slots, isFound, built⟩ := Option.bind_eq_some_iff.1 read
  obtain ⟨later, rfl⟩ := exists_slots isFound
  have readId : Form.read? 126 (treeOfId block.id) = some block.id := read?_treeOfId _ 125
  have readParent : Form.read? 126 (treeOfId block.parent) = some block.parent :=
    read?_treeOfId _ 125
  dsimp only at built
  split at built
  next _ timestamp transactions metadata same =>
    cases same
    simp only [required?, Option.bind_eq_bind, Option.bind_some, readId, readParent,
      Option.bind_eq_some_iff] at built
    obtain ⟨_, -, _, -, _, -, same⟩ := built
    cases same
    exact ⟨rfl, rfl⟩
  next => cases built

/-! ## Blocks of one text -/

theorem treeOfId_injective {left right : BlockId} (same : treeOfId left = treeOfId right) :
    left = right := by
  have read := read?_treeOfId left 0
  rw [same, read?_treeOfId right 0] at read
  exact (Option.some.inj read).symm

/-- What is spelled before a comma is settled by the whole text. -/
theorem eq_of_append_comma {left right leftRest rightRest : Bytes} {first second : Written}
    (spellsLeft : Spells left first) (spellsRight : Spells right second)
    (same : left ++ 0x2C :: leftRest = right ++ 0x2C :: rightRest) :
    first = second ∧ leftRest = rightRest := by
  have read := spellsLeft.reads (2 * left.length + 2 * right.length) _ (by omega)
    (endsNumber_comma leftRest)
  rw [same, spellsRight.reads _ _ (by omega) (endsNumber_comma rightRest)] at read
  cases read
  exact ⟨rfl, rfl⟩

/-- The text of a block, as far as its parent's identifier. -/
theorem exists_encode_eq (block : Block) : ∃ rest, encode block =
    0x7B :: (writeString "block_identifier" ++ 0x3A :: (encode block.id ++ 0x2C ::
      (writeString "parent_block_identifier" ++ 0x3A :: (encode block.parent ++ 0x2C :: rest)))) := by
  obtain ⟨rest, later⟩ : ∃ rest, joinComma ((("timestamp", Form.write block.timestamp) ::
      (field "transactions" block.transactions ++
        optionalField "metadata" block.metadata)).map fieldText) = rest := ⟨_, rfl⟩
  refine ⟨rest ++ [0x7D], ?_⟩
  rw [← later]
  simp only [encode, Form.write, field, writeObject_eq, List.cons_append, List.nil_append,
    List.map_cons, joinComma, fieldText, List.append_assoc]

/-- Blocks of one text have one identifier and one parent. -/
theorem bearings_of_encode_eq {left right : Block} (same : encode left = encode right) :
    left.id = right.id ∧ left.parent = right.parent := by
  obtain ⟨leftRest, leftText⟩ := exists_encode_eq left
  obtain ⟨rightRest, rightText⟩ := exists_encode_eq right
  rw [leftText, rightText] at same
  have ids := (List.cons.inj (List.append_cancel_left (List.cons.inj same).2)).2
  obtain ⟨sameId, rest⟩ := eq_of_append_comma (spells_blockId _) (spells_blockId _) ids
  have parents := (List.cons.inj (List.append_cancel_left rest)).2
  obtain ⟨sameParent, -⟩ := eq_of_append_comma (spells_blockId _) (spells_blockId _) parents
  exact ⟨treeOfId_injective sameId, treeOfId_injective sameParent⟩

end ChainFollower.Json
