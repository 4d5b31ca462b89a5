import ChainFollower.Proofs.Store.Stored

/-!
# The entries of a chain

`Holds blocks database` says that the entries of the database under the keys of
chains are exactly those of an orderly chain: each hash leads to its block, each
index to its hash, and the head is the newest block.  Additions above the head and
removals of the head keep this.
-/

namespace ChainFollower.Store

/-- The entries of a database under the keys of chains are those of an orderly
chain. -/
structure Holds (blocks : List Block) (database : Database) : Prop
    extends Orderly blocks, Stored blocks database where
  index : ∀ place, database.get? (Key.index place).bytes =
    (atIndex? place blocks).map fun block => Bytes.ofString block.id.hash
  others : ∀ key, Key.OfChain key → key ≠ Key.head.bytes →
    (∀ hash, key ≠ (Key.block hash).bytes) → (∀ place, key ≠ (Key.index place).bytes) →
    database.get? key = none

/-- Two databases have the same entries under the keys of chains. -/
def SameChain (before after : Database) : Prop :=
  ∀ key, Key.OfChain key → after.get? key = before.get? key

namespace Holds

variable {newest block : Block} {blocks older : List Block} {database : Database}

/-- An empty database holds the empty chain. -/
theorem empty (backend : Backend) : Holds [] (.empty backend) where
  toOrderly := .nil
  head := rfl
  block _ := rfl
  index _ := rfl
  others _ _ _ _ _ := rfl

/-! ## Reading by index -/

theorem yields_blockAt (holds : Holds blocks database) (member : block ∈ blocks) :
    Yields (BlockStore.blockAt block.id.index) database (.ok block) database := by
  refine BlockStore.yields_blockAt_of_get? (holds.durable block member) ?_ ?_
  · rw [holds.block, holds.withHash?_of_mem member, Option.map_some]
  · rw [holds.index, holds.atIndex?_of_mem member, Option.map_some]

theorem yields_blockAt_of_forall_ne (holds : Holds blocks database) {place : Int64}
    (missing : ∀ block ∈ blocks, block.id.index ≠ place) :
    Yields (BlockStore.blockAt place) database
      (.error (.storage (.blockNotFound ("index " ++ toString place)))) database := by
  refine BlockStore.yields_blockAt_of_get?_none ?_
  rw [holds.index, atIndex?_eq_none_iff.2 missing]
  rfl

/-! ## Adding and removing -/

/-- A new child above the head extends the chain that is held. -/
theorem add (holds : Holds blocks database) (durable : Durable block) (settled : ¬Stray block)
    (fresh : block.id.hash ∉ blocks.map (·.id.hash))
    (child : ∀ head ∈ blocks.head?, block.parent = head.id)
    (above : ∀ lower ∈ blocks, lower.id.index < block.id.index) {extra : Batch}
    (aside : Aside extra) :
    Holds (block :: blocks) (database.write (BlockStore.additions block ++ extra)) where
  toStored := holds.toStored.add durable fresh child aside
  falling := List.pairwise_cons.2 ⟨above, holds.falling⟩
  settled := by
    intro other member
    rcases List.mem_cons.1 member with rfl | member
    · exact settled
    · exact holds.settled other member
  index place := by
    rw [Database.get?_write, aside.outcome_append (Key.ofChain_index place), outcome_additions,
      atIndex?_cons]
    by_cases same : block.id.index = place
    · simp [same]
    · simp [same, Ne.symm same, holds.index place]
  others key ofChain notHead notBlock notIndex := by
    rw [Database.get?_write, aside.outcome_append ofChain, outcome_additions, if_neg notHead,
      if_neg (notIndex _), if_neg (notBlock _)]
    exact holds.others key ofChain notHead notBlock notIndex

/-- Without its newest block, the chain is held still. -/
theorem remove (holds : Holds (newest :: older) database) {extra : Batch} (aside : Aside extra) :
    Holds older (database.write
      (BlockStore.removals newest.id (older.head?.map Block.id) ++ extra)) where
  toStored := holds.toStored.remove aside
  falling := holds.falling.tail
  settled := holds.toOrderly.tail.settled
  index place := by
    have found := holds.index place
    rw [atIndex?_cons] at found
    rw [Database.get?_write, aside.outcome_append (Key.ofChain_index place), outcome_removals]
    by_cases same : newest.id.index = place
    · subst same
      have missing : atIndex? newest.id.index older = none :=
        atIndex?_eq_none_iff.2 fun lower member =>
          Int64.ne_of_lt (holds.toOrderly.lt_newest member)
      simp [missing]
    · simpa [same, Ne.symm same] using found
  others key ofChain notHead notBlock notIndex := by
    rw [Database.get?_write, aside.outcome_append ofChain, outcome_removals, if_neg notHead,
      if_neg (notIndex _), if_neg (notBlock _)]
    exact holds.others key ofChain notHead notBlock notIndex

/-- A database holds whatever one with the same entries of chains holds. -/
theorem congr (holds : Holds blocks database) {after : Database}
    (same : SameChain database after) : Holds blocks after where
  toOrderly := holds.toOrderly
  head := (same _ Key.ofChain_head).trans holds.head
  block hash := (same _ (Key.ofChain_block hash)).trans (holds.block hash)
  index place := (same _ (Key.ofChain_index place)).trans (holds.index place)
  others key ofChain notHead notBlock notIndex :=
    (same key ofChain).trans (holds.others key ofChain notHead notBlock notIndex)

end Holds

/-! ## As a list -/

/-- The entries a chain amounts to. -/
def chainEntries (blocks : List Block) : List Entry :=
  (blocks.head?.map fun newest => (Key.head.bytes, Json.encode newest.id)).toList ++
    blocks.flatMap fun block =>
      [((Key.block block.id.hash).bytes, Json.encode block),
        ((Key.index block.id.index).bytes, Bytes.ofString block.id.hash)]

theorem mem_chainEntries {blocks : List Block} {key value : Bytes} :
    (key, value) ∈ chainEntries blocks ↔
      (key = Key.head.bytes ∧
        blocks.head?.map (fun newest => Json.encode newest.id) = some value) ∨
      ∃ block ∈ blocks,
        (key = (Key.block block.id.hash).bytes ∧ value = Json.encode block) ∨
          (key = (Key.index block.id.index).bytes ∧ value = Bytes.ofString block.id.hash) := by
  cases blocks <;> simp [chainEntries, and_comm, eq_comm, or_assoc]

/-- The entries under the keys of chains are those the chain amounts to, and no
others. -/
theorem Holds.mem_entries_iff {blocks : List Block} {database : Database}
    (holds : Holds blocks database) (entry : Entry) :
    entry ∈ database.entries.entries ∧ Key.OfChain entry.1 ↔ entry ∈ chainEntries blocks := by
  obtain ⟨key, value⟩ := entry
  rw [ByteMap.mem_entries_iff, mem_chainEntries]
  change database.get? key = some value ∧ Key.OfChain key ↔ _
  constructor
  · rintro ⟨found, ofChain⟩
    by_cases isHead : key = Key.head.bytes
    · subst isHead
      exact Or.inl ⟨rfl, holds.head.symm.trans found⟩
    refine Or.inr ?_
    by_cases isBlock : ∃ hash, key = (Key.block hash).bytes
    · obtain ⟨hash, rfl⟩ := isBlock
      rw [holds.block] at found
      obtain ⟨block, foundBlock, rfl⟩ := Option.map_eq_some_iff.1 found
      obtain ⟨member, rfl⟩ := mem_of_withHash? foundBlock
      exact ⟨block, member, Or.inl ⟨rfl, rfl⟩⟩
    by_cases isIndex : ∃ place, key = (Key.index place).bytes
    · obtain ⟨place, rfl⟩ := isIndex
      rw [holds.index] at found
      obtain ⟨block, foundBlock, rfl⟩ := Option.map_eq_some_iff.1 found
      obtain ⟨member, rfl⟩ := mem_of_atIndex? foundBlock
      exact ⟨block, member, Or.inr ⟨rfl, rfl⟩⟩
    rw [holds.others key ofChain isHead (not_exists.1 isBlock) (not_exists.1 isIndex)] at found
    cases found
  · rintro (⟨rfl, found⟩ | ⟨block, member, ⟨rfl, rfl⟩ | ⟨rfl, rfl⟩⟩)
    · exact ⟨holds.head.trans found, Key.ofChain_head⟩
    · refine ⟨?_, Key.ofChain_block _⟩
      rw [holds.block, holds.withHash?_of_mem member]
      rfl
    · refine ⟨?_, Key.ofChain_index _⟩
      rw [holds.index, holds.atIndex?_of_mem member]
      rfl

end ChainFollower.Store
