import ChainFollower.Proofs.Store.Representation
import ChainFollower.Proofs.Words

/-!
# Heads without a block

The head is stored apart from its block.  A stray block, whose parent has its own
hash at another index, takes itself for its parent when it is removed as the only
block: the head then names a block that is not stored.  Without stray blocks and
without a block at the last index, the head can always be read, removed and rewound.
-/

namespace ChainFollower.Store

/-- Requests with blocks that survive their JSON form and satisfy a property. -/
def Supplied (admits : Block → Prop) (_ : Shelf) : Request → Prop
  | .prepare workers => ∀ worker ∈ workers, worker.Tame
  | .add block => Durable block ∧ admits block
  | .remove _ => True
  | .setStart _ => True

/-- The head, if there is one, has a block and can be removed, and rewinding to the
start leaves no head at or above it. -/
structure HeadStands (shelf : Shelf) : Prop where
  resolves : ∀ head, shelf.answer BlockStore.head = .ok head →
    ∃ block, shelf.answer BlockStore.headBlock = .ok block ∧ block.id = head
  removable : ∀ head, shelf.answer BlockStore.head = .ok head →
    (shelf.serve (.remove head)).1 = .ok ()
  rewindable : ∃ left, (shelf.serve (.setStart 0)).2.answer BlockStore.head? = .ok left ∧
    ∀ head ∈ left, head.index < 0

/-- A block that is neither stray nor at the last index. -/
def Sturdy (block : Block) : Prop :=
  ¬Stray block ∧ block.id.index ≠ Int64.maxValue

/-- A database with a chain of sturdy blocks. -/
def StoredSturdy (blocks : List Block) (database : Database) : Prop :=
  Stored blocks database ∧ ∀ block ∈ blocks, Sturdy block

theorem lasting_storedSturdy : Lasting StoredSturdy where
  stored kept := kept.1
  settled kept block member := (kept.2 block member).1
  remove kept aside :=
    ⟨kept.1.remove aside, fun block member => kept.2 block (List.mem_cons_of_mem _ member)⟩

variable {shelf : Shelf} {newest block : Block} {blocks older : List Block}
  {database : Database}

/-! ## Sturdy blocks -/

/-- An addition of a sturdy block is refused, or extends the chain. -/
theorem Shelf.Keeps.serve_add_sturdy (keeps : shelf.Keeps StoredSturdy blocks)
    (durable : Durable block) (sturdy : Sturdy block) :
    ∃ left, (shelf.serve (.add block)).2.Keeps StoredSturdy left := by
  refine keeps.serve_add lasting_storedSturdy block fun fresh child extra aside =>
    ⟨keeps.kept.1.add durable fresh child aside, fun other member => ?_⟩
  rcases List.mem_cons.1 member with rfl | member
  · exact sturdy
  · exact keeps.kept.2 other member

/-- The successor of an index below the last is not below zero unless the index is. -/
theorem index_neg_of_succ_neg {index : Int64} (notLast : index ≠ Int64.maxValue)
    (negative : index + 1 < 0) : index < 0 := by
  rw [Int64.lt_iff_toInt_lt, Words.toInt_succ (Words.ne_maxValue_iff.1 notLast)] at negative
  rw [Int64.lt_iff_toInt_lt]
  omega

/-- A chain of sturdy blocks has a head that stands. -/
theorem Shelf.Keeps.headStands (keeps : shelf.Keeps StoredSturdy blocks) : HeadStands shelf := by
  obtain ⟨stored, allSturdy⟩ := keeps.kept
  cases blocks with
  | nil =>
      have noHead := answer_eq stored.yields_head_nil keeps.sound
      refine ⟨fun head answered => ?_, fun head answered => ?_, none, ?_,
        fun _ none => nomatch none⟩
      · cases noHead.symm.trans answered
      · cases noHead.symm.trans answered
      · have left := (keeps.run (stored.yields_setStart_nil shelf.store Int64.le_rfl) keeps.kept).2
        exact answer_eq left.kept.1.yields_head? left.sound
  | cons newest older =>
      have isHead := answer_eq stored.yields_head keeps.sound
      have settled := lasting_storedSturdy.settled keeps.kept
      refine ⟨fun head answered => ?_, fun head answered => ?_, ?_⟩
      · cases isHead.symm.trans answered
        exact ⟨newest, answer_eq (.bind stored.yields_head (stored.yields_block List.mem_cons_self))
          keeps.sound, rfl⟩
      · cases isHead.symm.trans answered
        obtain ⟨extra, aside, yields⟩ := stored.yields_remove keeps.tame
        rw [stored.nextHead_eq (settled newest List.mem_cons_self)] at yields
        exact (keeps.run yields (lasting_storedSturdy.remove keeps.kept aside)).1
      · by_cases ahead : newest.id.index + 1 < 0
        · have left := (keeps.run
            (stored.yields_setStart_ahead shelf.store Int64.le_rfl ahead) keeps.kept).2
          refine ⟨_, answer_eq left.kept.1.yields_head? left.sound, ?_⟩
          rintro _ ⟨⟩
          exact index_neg_of_succ_neg (allSturdy newest List.mem_cons_self).2 ahead
        · obtain ⟨after, unwinds, yields⟩ := stored.yields_setStart settled keeps.tame
            Int64.le_rfl (Int64.not_lt.1 ahead)
          have left := (keeps.run yields (lasting_storedSturdy.unwinds unwinds keeps.kept)).2
          refine ⟨_, answer_eq left.kept.1.yields_head? left.sound, ?_⟩
          intro head member
          obtain ⟨remaining, isNewest, rfl⟩ := Option.map_eq_some_iff.1 member
          exact lt_of_mem_head?_dropWhile isNewest

/-! ## Other blocks -/

/-- The head names a block that is not stored. -/
structure Dangles (head : BlockId) (database : Database) : Prop where
  named : database.get? Key.head.bytes = some (Json.encode head)
  missing : database.get? (Key.block head.hash).bytes = none

theorem Dangles.yields_head {head : BlockId} (dangles : Dangles head database) :
    Yields BlockStore.head database (.ok head) database :=
  BlockStore.yields_head_of_get? (Json.decode?_encode_blockId head) dangles.named

theorem Dangles.yields_block {head : BlockId} (dangles : Dangles head database) :
    Yields (BlockStore.block head) database (.error (.storage (.blockNotFound head.display)))
      database := by
  unfold BlockStore.block
  refine .bind (.get? (Key.ofChain_block _) database) ?_
  rw [dangles.missing]
  exact .throw _ database

theorem Dangles.yields_headBlock {head : BlockId} (dangles : Dangles head database) :
    Yields BlockStore.headBlock database (.error (.storage (.blockNotFound head.display)))
      database :=
  .bind dangles.yields_head dangles.yields_block

/-- When a stray block is removed as the only one, its parent is the head and dangles. -/
theorem Stored.yields_remove_stray (stored : Stored [block] database) {store : BlockStore}
    (tame : store.Tame) (stray : Stray block) :
    ∃ after, Dangles block.parent after ∧
      Yields (store.remove block.id) database (.ok ()) after := by
  obtain ⟨extra, aside, yields⟩ := stored.yields_remove tame
  rw [nextHead_nil, if_pos stray] at yields
  refine ⟨_, ⟨?_, ?_⟩, yields⟩
  · exact head_removals aside block.id (some block.parent)
  · rw [Database.get?_write, aside.outcome_append (Key.ofChain_block _), outcome_removals,
      if_neg (Key.block_bytes_ne_head _), if_neg (Key.block_bytes_ne_index _ _), stray.1,
      if_pos rfl]

/-- The empty store takes any block. -/
theorem emptyShelf_add (durable : Durable block) :
    (emptyShelf.serve (.add block)).2.Keeps Stored [block] := by
  have stored := emptyShelf_keeps.kept.toStored
  have child : ∀ head ∈ ([] : List Block).head?, block.parent = head.id :=
    fun _ none => nomatch none
  obtain ⟨extra, aside, yields⟩ :=
    stored.yields_add emptyShelf_keeps.tame List.not_mem_nil child
  exact (emptyShelf_keeps.run yields (stored.add durable List.not_mem_nil child aside)).2

/-- When a stray block is removed again, its parent is the head and dangles. -/
theorem emptyShelf_add_remove (durable : Durable block) (stray : Stray block) :
    ((emptyShelf.serve (.add block)).2.serve (.remove block.id)).2.Keeps
      (fun _ => Dangles block.parent) [] := by
  have keeps := emptyShelf_add durable
  obtain ⟨after, dangles, yields⟩ := keeps.kept.yields_remove_stray keeps.tame stray
  exact (keeps.run yields dangles).2

/-- A head at the last index cannot be rewound. -/
theorem emptyShelf_add_setStart (durable : Durable block)
    (last : block.id.index = Int64.maxValue) :
    ((emptyShelf.serve (.add block)).2.serve (.setStart 0)).2.answer BlockStore.head? =
      .ok (some block.id) := by
  have keeps := emptyShelf_add durable
  have ahead : block.id.index + 1 < 0 := by rw [last]; decide
  have left := (keeps.run (keeps.kept.yields_setStart_ahead (emptyShelf.serve (.add block)).2.store
    Int64.le_rfl ahead) keeps.kept).2
  exact Shelf.answer_eq left.kept.yields_head? left.sound

/-- Heads stand after any requests with blocks of one kind exactly if no block of the
kind is stray or at the last index. -/
theorem headStands_iff_sturdy (admits : Block → Prop) :
    (∀ shelf, Reachable (Supplied admits) shelf → HeadStands shelf) ↔
      ∀ block, Durable block → admits block → ¬Stray block ∧ block.id.index ≠ Int64.maxValue := by
  constructor
  · intro stand block durable admitted
    have added : Reachable (Supplied admits) (emptyShelf.serve (.add block)).2 :=
      .serve (.empty _ _) _ ⟨durable, admitted⟩
    constructor
    · intro stray
      have dangling := emptyShelf_add_remove durable stray
      have stands := stand _ (added.serve (.remove block.id) trivial)
      obtain ⟨found, answered, -⟩ := stands.resolves block.parent
        (Shelf.answer_eq dangling.kept.yields_head dangling.sound)
      rw [Shelf.answer_eq dangling.kept.yields_headBlock dangling.sound] at answered
      cases answered
    · intro last
      obtain ⟨left, answered, below⟩ := (stand _ added).rewindable
      rw [emptyShelf_add_setStart durable last] at answered
      cases answered
      have negative := below block.id rfl
      rw [last] at negative
      exact absurd negative (by decide)
  · intro sturdy shelf reachable
    have kept : ∃ blocks, shelf.Keeps StoredSturdy blocks := by
      refine Shelf.exists_keeps_of_reachable lasting_storedSturdy
        (fun backend => ⟨(Holds.empty backend).toStored, fun _ member => nomatch member⟩)
        (fun tame => tame) (fun keeps admitted => ?_) reachable
      exact keeps.serve_add_sturdy admitted.1 (sturdy _ admitted.1 admitted.2)
    obtain ⟨blocks, keeps⟩ := kept
    exact keeps.headStands

/-- A block that gives its own hash, one index below, as its parent's. -/
def strayBlock : Block := ⟨⟨5, "a"⟩, ⟨4, "a"⟩, 0, [], none⟩

/-- After the stray block is added and removed again, the head cannot be read. -/
theorem head_dangles_strayBlock :
    ∃ shelf, Reachable (Supplied fun _ => True) shelf ∧
      shelf.answer BlockStore.head = .ok ⟨4, "a"⟩ ∧
      shelf.answer BlockStore.headBlock = .error (.storage (.blockNotFound "a:4")) := by
  have durable : Durable strayBlock := Json.decode?_encode_bareBlock _ _ _
  have dangling := emptyShelf_add_remove durable (by decide)
  have added : Reachable (Supplied fun _ => True) (emptyShelf.serve (.add strayBlock)).2 :=
    .serve (.empty _ _) _ ⟨durable, trivial⟩
  refine ⟨_, added.serve (.remove strayBlock.id) trivial,
    Shelf.answer_eq dangling.kept.yields_head dangling.sound,
    (Shelf.answer_eq dangling.kept.yields_headBlock dangling.sound).trans ?_⟩
  rfl

end ChainFollower.Store
