import ChainFollower.Proofs.Words
import ChainFollower.Store.Key

/-!
# Keys that differ

The entries of a chain are those under the head, the hashes and the indices of
blocks.  Their keys tell apart what they are about, and no transaction or counter
has such a key.
-/

namespace ChainFollower.Store.Key

theorem blockStart_eq :
    blockStart = [0x62, 0x6C, 0x6F, 0x63, 0x6B, 0x2F, 0x68, 0x61, 0x73, 0x68, 0x2F] := rfl

theorem indexStart_eq :
    indexStart = [0x62, 0x6C, 0x6F, 0x63, 0x6B, 0x2F, 0x69, 0x6E, 0x64, 0x65, 0x78, 0x2F] := rfl

theorem bytes_head :
    head.bytes = [0x68, 0x65, 0x61, 0x64, 0x2D, 0x62, 0x6C, 0x6F, 0x63, 0x6B] := rfl

/-- A key of the entries of a chain: the head's, or one with the leading bytes that
the keys of blocks and of indices share. -/
def OfChain (key : Bytes) : Prop :=
  key = head.bytes ∨ Bytes.startsWith key (Bytes.ofString "block/") = true

@[simp] theorem ofChain_head : OfChain head.bytes := Or.inl rfl

@[simp] theorem ofChain_block (hash : String) : OfChain (block hash).bytes :=
  Or.inr rfl

@[simp] theorem ofChain_index (place : Int64) : OfChain (index place).bytes :=
  Or.inr rfl

/-! ## Keys of chains -/

@[simp] theorem block_bytes_inj {left right : String} :
    (block left).bytes = (block right).bytes ↔ left = right := by
  constructor
  · intro equal
    exact Bytes.ofString_injective (List.append_cancel_left equal)
  · rintro rfl
    rfl

@[simp] theorem index_bytes_inj {left right : Int64} :
    (index left).bytes = (index right).bytes ↔ left = right := by
  constructor
  · intro equal
    have words := congrArg Bytes.toNat (List.append_cancel_left equal)
    have bound (word : UInt64) : word.toNat < 256 ^ 8 := word.toNat_lt
    rw [Bytes.toNat_bigEndian, Bytes.toNat_bigEndian, Nat.mod_eq_of_lt (bound _),
      Nat.mod_eq_of_lt (bound _)] at words
    have places := congrArg UInt64.toInt64 (UInt64.toNat_inj.1 words)
    rwa [Int64.toInt64_toUInt64, Int64.toInt64_toUInt64] at places
  · rintro rfl
    rfl

@[simp] theorem block_bytes_ne_index (hash : String) (place : Int64) :
    (block hash).bytes ≠ (index place).bytes := by
  simp [bytes, blockStart_eq, indexStart_eq]

@[simp] theorem index_bytes_ne_block (place : Int64) (hash : String) :
    (index place).bytes ≠ (block hash).bytes :=
  (block_bytes_ne_index hash place).symm

@[simp] theorem block_bytes_ne_head (hash : String) : (block hash).bytes ≠ head.bytes := by
  intro equal
  rw [bytes_head] at equal
  simp [bytes, blockStart_eq] at equal

@[simp] theorem index_bytes_ne_head (place : Int64) : (index place).bytes ≠ head.bytes := by
  intro equal
  rw [bytes_head] at equal
  simp [bytes, indexStart_eq] at equal

/-! ## Other keys -/

theorem head?_of_startsWith {key start : Bytes} {first : UInt8}
    (starts : Bytes.startsWith key start = true) (begins : start.head? = some first) :
    key.head? = some first := by
  obtain ⟨rest, rfl⟩ := List.isPrefixOf_iff_prefix.1 starts
  rw [List.head?_append, begins, Option.some_or]

/-- The first byte of a key of a chain. -/
theorem OfChain.head? {key : Bytes} (ofChain : OfChain key) :
    key.head? = some 0x68 ∨ key.head? = some 0x62 := by
  rcases ofChain with rfl | starts
  · exact Or.inl rfl
  · exact Or.inr (head?_of_startsWith starts rfl)

theorem not_ofChain_transaction (hash carrier : String) :
    ¬OfChain (transaction hash carrier).bytes := by
  intro ofChain
  have first : (transaction hash carrier).bytes.head? = some 0x74 := rfl
  rcases ofChain.head? with head | block
  · exact absurd (first.symm.trans head) (by decide)
  · exact absurd (first.symm.trans block) (by decide)

theorem not_ofChain_counter (name : String) : ¬OfChain (counter name).bytes := by
  intro ofChain
  have first : (counter name).bytes.head? = some 0x63 := rfl
  rcases ofChain.head? with head | block
  · exact absurd (first.symm.trans head) (by decide)
  · exact absurd (first.symm.trans block) (by decide)

/-- A counter is no entry of a chain. -/
theorem OfChain.ne_counter {key : Bytes} (ofChain : OfChain key) (name : String) :
    key ≠ (counter name).bytes := by
  rintro rfl
  exact not_ofChain_counter name ofChain

end ChainFollower.Store.Key
