import ChainFollower.Proofs.Store.Backends
import ChainFollower.Proofs.Store.Linked
import ChainFollower.Proofs.Store.Window

/-!
# The order of the index

The keys of indices that are no negative numbers sort like the indices, so a scan of the index
reads a chain from its oldest block to its newest.
-/

namespace ChainFollower

namespace Bytes

/-! ## The order of words -/

/-- After parts of one length, the rest decides only between equal parts. -/
theorem append_lt_append_iff {left right : Bytes} (same : left.length = right.length)
    (leftRest rightRest : Bytes) :
    left ++ leftRest < right ++ rightRest ↔
      left < right ∨ left = right ∧ leftRest < rightRest := by
  induction left generalizing right with
  | nil =>
      cases right with
      | nil => simp
      | cons byte right => nomatch same
  | cons first left ih =>
      cases right with
      | nil => nomatch same
      | cons second right =>
          have shorter : left.length = right.length := Nat.succ.inj same
          simp only [List.cons_append, List.cons_lt_cons_iff, ih shorter, List.cons.injEq]
          tauto

/-- The words of numbers that fit are equal when the numbers are. -/
theorem bigEndian_inj {width left right : Nat} (leftFits : left < 256 ^ width)
    (rightFits : right < 256 ^ width) :
    bigEndian width left = bigEndian width right ↔ left = right := by
  constructor
  · intro equal
    have numbers := congrArg toNat equal
    rwa [toNat_bigEndian, toNat_bigEndian, Nat.mod_eq_of_lt leftFits,
      Nat.mod_eq_of_lt rightFits] at numbers
  · rintro rfl
    rfl

/-- The words of numbers that fit sort like the numbers. -/
theorem bigEndian_lt_iff {width left right : Nat} (leftFits : left < 256 ^ width)
    (rightFits : right < 256 ^ width) :
    bigEndian width left < bigEndian width right ↔ left < right := by
  induction width generalizing left right with
  | zero =>
      have leftZero : left = 0 := Nat.lt_one_iff.1 leftFits
      have rightZero : right = 0 := Nat.lt_one_iff.1 rightFits
      subst leftZero rightZero
      exact ⟨fun less => absurd less (List.lt_irrefl _), fun less => absurd less (Nat.lt_irrefl 0)⟩
  | succ width ih =>
      rw [Nat.pow_succ'] at leftFits rightFits
      have leftShort : left / 256 < 256 ^ width := Nat.div_lt_of_lt_mul leftFits
      have rightShort : right / 256 < 256 ^ width := Nat.div_lt_of_lt_mul rightFits
      have last : [UInt8.ofNat left] < [UInt8.ofNat right] ↔ left % 256 < right % 256 := by
        rw [List.cons_lt_cons_iff, UInt8.lt_iff_toNat_lt, UInt8.toNat_ofNat', UInt8.toNat_ofNat']
        simp
      rw [bigEndian, bigEndian, append_lt_append_iff (by simp), ih leftShort rightShort,
        bigEndian_inj leftShort rightShort, last]
      omega

end Bytes

namespace Store

/-! ## The order of indices -/

/-- A number that is not negative is the same without a sign. -/
theorem toNat_toUInt64 {place : Int64} (natural : 0 ≤ place) :
    (place.toUInt64.toNat : Int) = place.toInt := by
  have nonneg : 0 ≤ place.toInt := Int64.le_iff_toInt_le.1 natural
  have bound : place.toUInt64.toNat < 18446744073709551616 := place.toUInt64.toNat_lt
  have wrapped := Words.toInt_toInt64_eq place.toUInt64
  rw [Int64.toInt64_toUInt64, Int.bmod_def] at wrapped
  omega

/-- The keys of indices sort like the indices. -/
theorem Key.index_bytes_lt_iff {left right : Int64} (leftNatural : 0 ≤ left)
    (rightNatural : 0 ≤ right) :
    (Key.index left).bytes < (Key.index right).bytes ↔ left < right := by
  have fits (place : Int64) : place.toUInt64.toNat < 256 ^ 8 := place.toUInt64.toNat_lt
  have leftNumber := toNat_toUInt64 leftNatural
  have rightNumber := toNat_toUInt64 rightNatural
  rw [Key.bytes, Key.bytes, Bytes.append_lt_append_iff rfl, Bytes.bigEndian_lt_iff (fits _) (fits _),
    Int64.lt_iff_toInt_lt]
  have irreflexive : ¬Key.indexStart < Key.indexStart := List.lt_irrefl _
  simp only [irreflexive, false_or, true_and]
  omega

/-! ## The index of a chain -/

namespace Key

theorem startsWith_index (place : Int64) :
    Bytes.startsWith (index place).bytes indexStart = true := rfl

/-- What starts like the key of an index is an entry of a chain. -/
theorem ofChain_of_indexStart {key : Bytes} (starts : Bytes.startsWith key indexStart = true) :
    OfChain key := by
  obtain ⟨rest, rfl⟩ := List.isPrefixOf_iff_prefix.1 starts
  exact Or.inr rfl

theorem ne_head_of_indexStart {key : Bytes} (starts : Bytes.startsWith key indexStart = true) :
    key ≠ head.bytes := by
  obtain ⟨rest, rfl⟩ := List.isPrefixOf_iff_prefix.1 starts
  rw [bytes_head]
  simp [indexStart_eq]

theorem ne_block_of_indexStart {key : Bytes} (starts : Bytes.startsWith key indexStart = true)
    (hash : String) : key ≠ (block hash).bytes := by
  obtain ⟨rest, rfl⟩ := List.isPrefixOf_iff_prefix.1 starts
  simp [bytes, blockStart_eq, indexStart_eq]

end Key

/-- The entry of a block in the index. -/
def indexEntry (block : Block) : Entry :=
  ((Key.index block.id.index).bytes, Bytes.ofString block.id.hash)

namespace Placed

variable {blocks : List Block} {database : Database}

/-- The entries of the index are those of the blocks. -/
theorem mem_scan_iff (placed : Placed blocks database) (entry : Entry) :
    entry ∈ database.scan Key.indexStart ↔ ∃ block ∈ blocks, entry = indexEntry block := by
  obtain ⟨key, value⟩ := entry
  rw [Database.mem_scan]
  constructor
  · rintro ⟨found, starts⟩
    by_cases isIndex : ∃ place, key = (Key.index place).bytes
    · obtain ⟨place, rfl⟩ := isIndex
      rw [placed.index] at found
      obtain ⟨block, foundBlock, rfl⟩ := Option.map_eq_some_iff.1 found
      obtain ⟨member, rfl⟩ := mem_of_atIndex? foundBlock
      exact ⟨block, member, rfl⟩
    · rw [placed.others key (Key.ofChain_of_indexStart starts) (Key.ne_head_of_indexStart starts)
        (Key.ne_block_of_indexStart starts) (not_exists.1 isIndex)] at found
      cases found
  · rintro ⟨block, member, same⟩
    cases same
    refine ⟨?_, Key.startsWith_index _⟩
    rw [placed.index, atIndex?_of_falling placed.falling member]
    rfl

/-- From the oldest block to the newest, the entries of the index ascend. -/
theorem ascending_indexEntries (placed : Placed blocks database)
    (natural : ∀ block ∈ blocks, 0 ≤ block.id.index) :
    Ascending (blocks.reverse.map indexEntry) := by
  rw [Ascending, List.pairwise_map, List.pairwise_reverse]
  refine placed.falling.imp_of_mem fun upperMember lowerMember falls => ?_
  exact (Key.index_bytes_lt_iff (natural _ lowerMember) (natural _ upperMember)).2 falls

/-- A scan of the index finds the blocks from the oldest to the newest. -/
theorem scan_eq (placed : Placed blocks database)
    (natural : ∀ block ∈ blocks, 0 ≤ block.id.index) :
    database.scan Key.indexStart = blocks.reverse.map indexEntry := by
  refine ByteMap.eq_of_mem_iff (database.ascending_scan _)
    (placed.ascending_indexEntries natural) fun entry => ?_
  rw [placed.mem_scan_iff]
  simp only [List.mem_map, List.mem_reverse, eq_comm]

end Placed

/-- The keys of natural indices sort like the indices.  Hence a scan of the index of a chain with
natural indices, whatever gaps it has and whatever keeps the entries, finds the hashes of the
chain from the oldest block to the newest. -/
theorem index_keys_sort :
    (∀ left right : Int64, 0 ≤ left → 0 ≤ right →
      ((Key.index left).bytes < (Key.index right).bytes ↔ left < right)) ∧
    ∀ (blocks : List Block) (database : Database), Placed blocks database →
      (∀ block ∈ blocks, 0 ≤ block.id.index) →
      database.scan Key.indexStart = (blocks.reverse.map fun block =>
        ((Key.index block.id.index).bytes, Bytes.ofString block.id.hash)) ∧
      (database.scan Key.indexStart).map (fun entry => Bytes.toString? entry.2) =
        blocks.reverse.map fun block => some block.id.hash := by
  refine ⟨fun left right => Key.index_bytes_lt_iff, ?_⟩
  intro blocks database placed natural
  have found := placed.scan_eq natural
  refine ⟨found, ?_⟩
  rw [found, List.map_map]
  exact List.map_congr_left fun block _ => Bytes.toString?_ofString block.id.hash

/-- Of a store with a gap of nineteen indices, a scan finds both hashes in order. -/
theorem index_keys_sort_gappedShelf :
    Placed [distantBlock, firstBlock] gappedShelf.session.database ∧
      ((Key.index 0).bytes < (Key.index 20).bytes ↔ (0 : Int64) < 20) ∧
      (gappedShelf.session.database.scan Key.indexStart).map (fun entry =>
        Bytes.toString? entry.2) = [some "a", some "b"] := by
  have placed := gappedShelf_keeps.kept.toPlaced
  have natural : ∀ block ∈ [distantBlock, firstBlock], 0 ≤ block.id.index := by decide
  exact ⟨placed, index_keys_sort.1 0 20 (by decide) (by decide),
    (index_keys_sort.2 _ _ placed natural).2⟩

end Store

end ChainFollower
