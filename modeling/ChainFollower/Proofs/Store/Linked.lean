import ChainFollower.Proofs.Block.Bearings
import ChainFollower.Proofs.Store.Tally

/-!
# Databases that hold a chain, piece by piece

Most of what stores do depends on little of what they hold.  `Linked` says that the head and the
hashes lead to the blocks of a chain, whether or not their stored texts read back; `Placed` says
the same of indices, and that there are no other entries of chains.

That the head and the hashes lead to a chain is kept by additions, removals and new starts,
whichever accesses fail.
-/

namespace ChainFollower.Store

/-- The head and the blocks of a database are those of a chain in which no block is stray. -/
structure Linked (blocks : List Block) (database : Database) : Prop where
  linked : blocks.IsChain fun upper lower => upper.parent = lower.id
  distinct : (blocks.map (·.id.hash)).Nodup
  settled : ∀ block ∈ blocks, ¬Stray block
  head : database.get? Key.head.bytes = blocks.head?.map fun newest => Json.encode newest.id
  block : ∀ hash, database.get? (Key.block hash).bytes = (withHash? hash blocks).map Json.encode

/-- The indices fall from the newest block on, each leads to its block, and the database has no
other entries of chains. -/
structure Placed (blocks : List Block) (database : Database) : Prop where
  falling : blocks.Pairwise fun upper lower => lower.id.index < upper.id.index
  index : ∀ place, database.get? (Key.index place).bytes =
    (atIndex? place blocks).map fun block => Bytes.ofString block.id.hash
  others : ∀ key, Key.OfChain key → key ≠ Key.head.bytes →
    (∀ hash, key ≠ (Key.block hash).bytes) → (∀ place, key ≠ (Key.index place).bytes) →
    database.get? key = none

variable {fault : Nat → Access → Option String} {store : BlockStore} {newest block : Block}
  {blocks older : List Block} {database after : Database} {extra : Batch}

theorem Holds.toLinked (holds : Holds blocks database) : Linked blocks database :=
  ⟨holds.linked, holds.distinct, holds.settled, holds.head, holds.block⟩

theorem Holds.toPlaced (holds : Holds blocks database) : Placed blocks database :=
  ⟨holds.falling, holds.index, holds.others⟩

namespace Linked

/-- An addition of a child of the head leads to a longer chain. -/
theorem add (linked : Linked blocks database) (settled : ¬Stray block)
    (fresh : block.id.hash ∉ blocks.map (·.id.hash))
    (child : ∀ head ∈ blocks.head?, block.parent = head.id) (aside : Aside extra) :
    Linked (block :: blocks) (database.write (BlockStore.additions block ++ extra)) where
  linked := List.isChain_cons.2 ⟨child, linked.linked⟩
  distinct := List.nodup_cons.2 ⟨fresh, linked.distinct⟩
  settled := List.forall_mem_cons.2 ⟨settled, linked.settled⟩
  head := head_additions aside
  block hash := block_additions aside (linked.block hash)

/-- The hash of the newest block is not among the older ones. -/
theorem newest_notMem (linked : Linked (newest :: older) database) :
    newest.id.hash ∉ older.map (·.id.hash) :=
  (List.nodup_cons.1 linked.distinct).1

/-- A removal of the head leads to what is below it. -/
theorem remove (linked : Linked (newest :: older) database) (aside : Aside extra) :
    Linked older (database.write
      (BlockStore.removals newest.id (older.head?.map Block.id) ++ extra)) where
  linked := linked.linked.tail
  distinct := (List.nodup_cons.1 linked.distinct).2
  settled := (List.forall_mem_cons.1 linked.settled).2
  head := by
    rw [head_removals aside, Option.map_map]
    rfl
  block hash := block_removals aside _ linked.newest_notMem (linked.block hash)

theorem congr (linked : Linked blocks database) (same : SameChain database after) :
    Linked blocks after where
  linked := linked.linked
  distinct := linked.distinct
  settled := linked.settled
  head := (same _ Key.ofChain_head).trans linked.head
  block hash := (same _ (Key.ofChain_block hash)).trans (linked.block hash)

/-- The head is read as the identifier of the newest block. -/
theorem decode?_head (linked : Linked blocks database) :
    (database.get? Key.head.bytes).map Json.decode? = blocks.head?.map fun newest =>
      some newest.id := by
  rw [linked.head, Option.map_map]
  congr 1
  funext newest
  exact Json.decode?_encode_blockId newest.id

/-- What is below the newest block is settled by where that stands. -/
theorem below?_eq (linked : Linked (newest :: older) database) {found : Block}
    (sameId : found.id = newest.id) (sameParent : found.parent = newest.parent) :
    BlockStore.below? database found = older.head?.map Block.id := by
  rw [← nextHead_eq (List.isChain_cons.1 linked.linked).1 linked.newest_notMem
    (linked.settled newest List.mem_cons_self)]
  rw [BlockStore.below?, linked.block, Option.isSome_map, sameParent, Block.isGenesis, sameId,
    sameParent]
  rfl

/-- A database leads to one list of identifiers. -/
theorem ids_eq {first second : List Block} (left : Linked first database)
    (right : Linked second database) : first.map Block.id = second.map Block.id := by
  induction first generalizing second database with
  | nil =>
      have heads := right.decode?_head.symm.trans left.decode?_head
      cases second with
      | nil => rfl
      | cons newest older => nomatch heads
  | cons newest older ih =>
      have heads := right.decode?_head.symm.trans left.decode?_head
      cases second with
      | nil => nomatch heads
      | cons other others =>
          have sameId : other.id = newest.id := Option.some.inj (Option.some.inj heads)
          have texts := (right.block other.id.hash).symm.trans (left.block other.id.hash)
          rw [withHash?_cons, if_pos rfl, sameId, withHash?_cons, if_pos rfl] at texts
          have sameParent := (Json.bearings_of_encode_eq (Option.some.inj texts)).2
          -- Without their heads, both chains are led to by one database again.
          have below := (right.below?_eq rfl rfl).symm.trans (left.below?_eq sameId sameParent)
          have rightRest := right.remove Aside.nil
          rw [below, sameId] at rightRest
          rw [List.map_cons, List.map_cons, sameId, ih (left.remove Aside.nil) rightRest]

/-! ## Requests -/

/-- An addition fails, or makes its block the newest. -/
theorem ends_add (linked : Linked blocks database) (modest : store.Modest)
    (settled : ¬Stray block) :
    Ends fault (store.add block) database fun result after =>
      match result with
      | .error _ => after = database
      | .ok () => Linked (block :: blocks) after := by
  apply (BlockStore.ends_add_child store block).weaken
  rintro result after ⟨outcome, child⟩
  cases result with
  | error error => exact outcome
  | ok =>
      obtain ⟨absent, staged, ran, rfl⟩ := outcome
      obtain ⟨extra, remote, rfl⟩ := modest.stage_adding ran
      rw [linked.block, Option.map_eq_none_iff, withHash?_eq_none_iff] at absent
      refine linked.add settled absent ?_ remote.aside
      intro head isHead
      refine child rfl head.id ?_
      rw [linked.decode?_head, isHead]
      rfl

/-- A removal fails, or takes the newest block away. -/
theorem ends_remove (linked : Linked blocks database) (modest : store.Modest) (id : BlockId) :
    Ends fault (store.remove id) database fun result after =>
      match result with
      | .error _ => after = database
      | .ok () => ∃ newest older, blocks = newest :: older ∧ newest.id = id ∧
          Linked older after := by
  apply (BlockStore.ends_remove_head store id).weaken
  intro result after outcome
  cases result with
  | error error => exact outcome
  | ok =>
      obtain ⟨isHead, found, staged, stored, ran, rfl⟩ := outcome
      obtain ⟨extra, remote, rfl⟩ := modest.stage_removing ran
      rw [linked.decode?_head] at isHead
      cases blocks with
      | nil => cases isHead
      | cons newest older =>
          cases isHead
          rw [linked.block, withHash?_cons, if_pos rfl] at stored
          obtain ⟨sameId, sameParent⟩ := Json.bearings_of_decode? (Option.some.inj stored)
          rw [linked.below?_eq sameId sameParent]
          exact ⟨newest, older, rfl, rfl, linked.remove remote.aside⟩

/-- A new start leaves the lower end of the chain, also when it fails on the way. -/
theorem ends_setStart (linked : Linked blocks database) (modest : store.Modest) (start : Int64) :
    Ends fault (store.setStart start) database fun _ after =>
      ∃ left, left <:+ blocks ∧ Linked left after := by
  refine BlockStore.ends_setStart_kept ?_ start ⟨blocks, List.suffix_rfl, linked⟩
  rintro id between ⟨left, lower, linkedLeft⟩
  apply (linkedLeft.ends_remove modest id).weaken
  intro result after outcome
  cases result with
  | error error => exact ⟨left, lower, outcome ▸ linkedLeft⟩
  | ok =>
      obtain ⟨newest, older, rfl, -, linkedOlder⟩ := outcome
      exact ⟨older, (List.suffix_cons newest older).trans lower, linkedOlder⟩

end Linked

end ChainFollower.Store
