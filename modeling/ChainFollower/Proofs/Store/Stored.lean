import ChainFollower.Proofs.Json.Documents
import ChainFollower.Proofs.Store.Chains
import ChainFollower.Proofs.Store.Yields
import ChainFollower.Store.BlockStore

/-!
# Databases that hold a chain

`Stored blocks database` says that the head and the blocks of a database are those
of a chain.  Reading the store then answers from the chain, and an addition or a
removal amounts to one batch.
-/

namespace ChainFollower.Store

/-- The head and the blocks of a database are those of a chain. -/
structure Stored (blocks : List Block) (database : Database) : Prop extends Chain blocks where
  head : database.get? Key.head.bytes = blocks.head?.map fun newest => Json.encode newest.id
  block : ∀ hash, database.get? (Key.block hash).bytes = (withHash? hash blocks).map Json.encode

/-- Changes of entries that are not of the chain. -/
def Aside (batch : Batch) : Prop :=
  ∀ change ∈ batch, ¬Key.OfChain change.key

theorem Aside.nil : Aside [] :=
  fun _ member => nomatch member

theorem Aside.append {first second : Batch} (asideFirst : Aside first)
    (asideSecond : Aside second) : Aside (first ++ second) := by
  intro change member
  rcases List.mem_append.1 member with member | member
  · exact asideFirst change member
  · exact asideSecond change member

/-- Changes of other entries do not show in the entries of the chain. -/
theorem Aside.outcome_append {key : Bytes} {extra : Batch} (aside : Aside extra)
    (ofChain : Key.OfChain key) (before : Option Bytes) (batch : Batch) :
    Batch.outcome key before (batch ++ extra) = Batch.outcome key before batch := by
  rw [Batch.outcome_append, Batch.outcome_of_forall_ne]
  rintro change member rfl
  exact aside change member ofChain

/-- What the changes that store a block leave under a key. -/
theorem outcome_additions (block : Block) (key : Bytes) (before : Option Bytes) :
    Batch.outcome key before (BlockStore.additions block) =
      if key = Key.head.bytes then some (Json.encode block.id)
      else if key = (Key.index block.id.index).bytes then some (Bytes.ofString block.id.hash)
      else if key = (Key.block block.id.hash).bytes then some (Json.encode block)
      else before := by
  simp only [BlockStore.additions, Batch.outcome_cons, Batch.outcome_nil, Change.key,
    Change.value?, eq_comm]

/-- What the changes that remove a block leave under a key. -/
theorem outcome_removals (id : BlockId) (newHead : Option BlockId) (key : Bytes)
    (before : Option Bytes) :
    Batch.outcome key before (BlockStore.removals id newHead) =
      if key = Key.head.bytes then newHead.map Json.encode
      else if key = (Key.index id.index).bytes then none
      else if key = (Key.block id.hash).bytes then none
      else before := by
  cases newHead <;>
    simp only [BlockStore.removals, Batch.outcome_cons, Batch.outcome_nil, Change.key,
      Change.value?, eq_comm, Option.map_none, Option.map_some]

/-! ## Workers -/

/-- A worker that refuses no block and leaves the entries of the chain alone. -/
structure Worker.Tame (worker : Worker) : Prop where
  adding : ∀ block batch, ∃ extra, Aside extra ∧ worker.adding block batch = .ok (batch ++ extra)
  removing : ∀ block batch, ∃ extra, Aside extra ∧
    worker.removing block batch = .ok (batch ++ extra)

theorem Worker.tame_transactionIndex : transactionIndex.Tame where
  adding block batch := by
    refine ⟨_, ?_, rfl⟩
    intro change member
    simp only [transactionKeys, List.map_map, List.mem_map] at member
    obtain ⟨transaction, -, rfl⟩ := member
    exact Key.not_ofChain_transaction _ _
  removing block batch := by
    refine ⟨_, ?_, rfl⟩
    intro change member
    simp only [transactionKeys, List.map_map, List.mem_map] at member
    obtain ⟨transaction, -, rfl⟩ := member
    exact Key.not_ofChain_transaction _ _

/-- Stages that only append changes of other entries append them together. -/
theorem Worker.stage_aside {stages : List (Batch → Except SyncError Batch)}
    (tame : ∀ step ∈ stages, ∀ batch, ∃ extra, Aside extra ∧ step batch = .ok (batch ++ extra))
    (batch : Batch) : ∃ extra, Aside extra ∧ stage stages batch = .ok (batch ++ extra) := by
  induction stages generalizing batch with
  | nil =>
      refine ⟨[], .nil, ?_⟩
      rw [List.append_nil]
      rfl
  | cons step rest ih =>
      obtain ⟨first, asideFirst, staged⟩ := tame step List.mem_cons_self batch
      obtain ⟨more, asideMore, stagedMore⟩ :=
        ih (fun later member => tame later (List.mem_cons_of_mem _ member)) (batch ++ first)
      refine ⟨first ++ more, asideFirst.append asideMore, ?_⟩
      rw [← List.append_assoc, ← stagedMore, stage, List.foldlM_cons, staged]
      rfl

namespace BlockStore

/-- Every worker of the store is tame. -/
def Tame (store : BlockStore) : Prop :=
  ∀ worker ∈ store.workers, worker.Tame

theorem Tame.stage_adding {store : BlockStore} (tame : store.Tame) (block : Block)
    (batch : Batch) : ∃ extra, Aside extra ∧
      Worker.stage (store.workers.map (·.adding block)) batch = .ok (batch ++ extra) := by
  refine Worker.stage_aside ?_ batch
  intro step member
  obtain ⟨worker, among, rfl⟩ := List.mem_map.1 member
  exact (tame worker among).adding block

theorem Tame.stage_removing {store : BlockStore} (tame : store.Tame) (block : Block)
    (batch : Batch) : ∃ extra, Aside extra ∧
      Worker.stage (store.workers.map (·.removing block)) batch = .ok (batch ++ extra) := by
  refine Worker.stage_aside ?_ batch
  intro step member
  obtain ⟨worker, among, rfl⟩ := List.mem_map.1 member
  exact (tame worker among).removing block

end BlockStore

/-! ## The head -/

/-- The head after the newest block is removed. -/
def nextHead (newest : Block) (older : List Block) : Option BlockId :=
  if newest.isGenesis then none
  else if (withHash? newest.parent.hash (newest :: older)).isSome then some newest.parent
  else none

/-- Above another block, it is that block. -/
theorem nextHead_cons {newest lower : Block} {older : List Block}
    (child : newest.parent = lower.id)
    (fresh : newest.id.hash ∉ (lower :: older).map (·.id.hash)) :
    nextHead newest (lower :: older) = some lower.id := by
  have notGenesis : newest.isGenesis = false := by
    rw [Block.isGenesis, beq_eq_false_iff_ne, child]
    intro same
    exact fresh (same ▸ List.mem_cons_self)
  have found : (withHash? lower.id.hash (newest :: lower :: older)).isSome = true := by
    rw [Option.isSome_iff_ne_none, Ne, withHash?_eq_none_iff]
    exact not_not_intro (List.mem_cons_of_mem _ List.mem_cons_self)
  rw [nextHead, notGenesis, child, found]
  rfl

/-- Below the only block, it is nothing unless the block is stray. -/
theorem nextHead_nil (block : Block) :
    nextHead block [] = if Stray block then some block.parent else none := by
  rw [nextHead, withHash?_cons, withHash?_nil]
  by_cases genesis : block.isGenesis
  · rw [if_pos genesis, if_neg]
    exact fun stray => stray.2 (beq_iff_eq.1 genesis).symm
  · rw [if_neg genesis]
    have other : block.parent ≠ block.id := fun same => genesis (beq_iff_eq.2 same.symm)
    by_cases same : block.parent.hash = block.id.hash
    · rw [if_pos same.symm]
      exact (if_pos ⟨same, other⟩).symm
    · rw [if_neg (Ne.symm same)]
      exact (if_neg fun stray => same stray.1).symm

/-- The removal of a settled block leaves the block below it as the head. -/
theorem nextHead_eq {newest : Block} {older : List Block}
    (child : ∀ lower ∈ older.head?, newest.parent = lower.id)
    (fresh : newest.id.hash ∉ older.map (·.id.hash)) (settled : ¬Stray newest) :
    nextHead newest older = older.head?.map Block.id := by
  cases older with
  | nil => rw [nextHead_nil, if_neg settled]; rfl
  | cons lower older => exact nextHead_cons (child lower rfl) fresh

theorem Chain.nextHead_eq {newest : Block} {older : List Block} (chain : Chain (newest :: older))
    (settled : ¬Stray newest) : nextHead newest older = older.head?.map Block.id :=
  Store.nextHead_eq (List.isChain_cons.1 chain.linked).1 chain.newest_notMem settled

/-! ## Writing -/

section

variable {database : Database} {block newest : Block} {blocks older : List Block} {extra : Batch}

/-- An addition makes its block the head. -/
theorem head_additions (aside : Aside extra) :
    (database.write (BlockStore.additions block ++ extra)).get? Key.head.bytes =
      some (Json.encode block.id) := by
  rw [Database.get?_write, aside.outcome_append Key.ofChain_head, outcome_additions, if_pos rfl]

/-- And stores it under its hash. -/
theorem block_additions (aside : Aside extra) {hash : String}
    (stored : database.get? (Key.block hash).bytes = (withHash? hash blocks).map Json.encode) :
    (database.write (BlockStore.additions block ++ extra)).get? (Key.block hash).bytes =
      (withHash? hash (block :: blocks)).map Json.encode := by
  rw [Database.get?_write, aside.outcome_append (Key.ofChain_block hash), outcome_additions,
    withHash?_cons]
  by_cases same : block.id.hash = hash
  · simp [same]
  · simp [same, Ne.symm same, stored]

/-- A removal makes the next block the head. -/
theorem head_removals (aside : Aside extra) (id : BlockId) (newHead : Option BlockId) :
    (database.write (BlockStore.removals id newHead ++ extra)).get? Key.head.bytes =
      newHead.map Json.encode := by
  rw [Database.get?_write, aside.outcome_append Key.ofChain_head, outcome_removals, if_pos rfl]

/-- And leaves nothing under the hash. -/
theorem block_removals (aside : Aside extra) (newHead : Option BlockId) {hash : String}
    (fresh : newest.id.hash ∉ older.map (·.id.hash))
    (stored : database.get? (Key.block hash).bytes =
      (withHash? hash (newest :: older)).map Json.encode) :
    (database.write (BlockStore.removals newest.id newHead ++ extra)).get? (Key.block hash).bytes =
      (withHash? hash older).map Json.encode := by
  rw [withHash?_cons] at stored
  rw [Database.get?_write, aside.outcome_append (Key.ofChain_block hash), outcome_removals]
  by_cases same : newest.id.hash = hash
  · subst same
    simp [withHash?_eq_none_iff.2 fresh]
  · simpa [same, Ne.symm same] using stored

end

/-! ## Reading -/

namespace BlockStore

variable {database : Database} {stored : Block} {bytes : Bytes}

theorem yields_head_of_get? {id : BlockId} (decodes : Json.decode? bytes = some id)
    (found : database.get? Key.head.bytes = some bytes) :
    Yields head database (.ok id) database := by
  unfold head
  refine .bind (.get? Key.ofChain_head database) ?_
  rw [found]
  exact .decodeStored decodes database

theorem yields_head_of_get?_none (missing : database.get? Key.head.bytes = none) :
    Yields head database (.error (.storage .headNotFound)) database := by
  unfold head
  refine .bind (.get? Key.ofChain_head database) ?_
  rw [missing]
  exact .throw _ database

theorem yields_block_of_get? (decodes : Json.decode? bytes = some stored)
    (found : database.get? (Key.block stored.id.hash).bytes = some bytes) :
    Yields (block stored.id) database (.ok stored) database := by
  unfold block
  refine .bind (.get? (Key.ofChain_block _) database) ?_
  rw [found]
  refine .bind (.decodeStored decodes database) ?_
  rw [if_pos rfl]
  exact .pure stored database

theorem yields_blockAt_of_get? (decodes : Json.decode? bytes = some stored)
    (found : database.get? (Key.block stored.id.hash).bytes = some bytes)
    (place : database.get? (Key.index stored.id.index).bytes =
      some (Bytes.ofString stored.id.hash)) :
    Yields (blockAt stored.id.index) database (.ok stored) database := by
  unfold blockAt
  refine .bind (.get? (Key.ofChain_index _) database) ?_
  rw [place]
  dsimp only
  rw [Bytes.toString?_ofString]
  exact yields_block_of_get? decodes found

theorem yields_blockAt_of_get?_none {place : Int64}
    (missing : database.get? (Key.index place).bytes = none) :
    Yields (blockAt place) database
      (.error (.storage (.blockNotFound ("index " ++ toString place)))) database := by
  unfold blockAt
  refine .bind (.get? (Key.ofChain_index _) database) ?_
  rw [missing]
  exact .throw _ database

/-- What the head is read as, or nothing. -/
theorem yields_head?_of_get? {newest? : Option BlockId}
    (found : (database.get? Key.head.bytes).map Json.decode? = newest?.map some) :
    Yields head? database (.ok newest?) database := by
  unfold head?
  cases newest? with
  | none =>
      rw [Option.map_none, Option.map_eq_none_iff] at found
      refine .tryCatch_error (.map_error some (yields_head_of_get?_none found)) ?_
      exact .pure none database
  | some id =>
      rw [Option.map_some, Option.map_eq_some_iff] at found
      obtain ⟨bytes, present, decodes⟩ := found
      exact .tryCatch (.map some (yields_head_of_get? decodes present))

end BlockStore

namespace Stored

variable {newest : Block} {blocks older : List Block} {database : Database}

theorem yields_head (stored : Stored (newest :: older) database) :
    Yields BlockStore.head database (.ok newest.id) database :=
  BlockStore.yields_head_of_get? (Json.decode?_encode_blockId _) stored.head

theorem yields_head_nil (stored : Stored [] database) :
    Yields BlockStore.head database (.error (.storage .headNotFound)) database :=
  BlockStore.yields_head_of_get?_none stored.head

theorem yields_head? (stored : Stored blocks database) :
    Yields BlockStore.head? database (.ok (blocks.head?.map Block.id)) database := by
  refine BlockStore.yields_head?_of_get? ?_
  rw [stored.head]
  cases blocks with
  | nil => rfl
  | cons newest older => exact congrArg some (Json.decode?_encode_blockId newest.id)

theorem yields_contains (stored : Stored blocks database) (hash : String) :
    Yields (BlockStore.contains hash) database (.ok (withHash? hash blocks).isSome) database := by
  unfold BlockStore.contains
  refine .bind (.get? (Key.ofChain_block hash) database) ?_
  rw [stored.block, Option.isSome_map]
  exact .pure _ database

/-- A block of the chain is found by its identifier. -/
theorem yields_block (stored : Stored blocks database) {block : Block} (member : block ∈ blocks) :
    Yields (BlockStore.block block.id) database (.ok block) database := by
  refine BlockStore.yields_block_of_get? (stored.durable block member) ?_
  rw [stored.block, stored.withHash?_of_mem member, Option.map_some]

/-- An identifier of no block of the chain is not found. -/
theorem yields_block_of_forall_ne (stored : Stored blocks database) {id : BlockId}
    (missing : ∀ block ∈ blocks, block.id ≠ id) :
    Yields (BlockStore.block id) database (.error (.storage (.blockNotFound id.display)))
      database := by
  unfold BlockStore.block
  refine .bind (.get? (Key.ofChain_block _) database) ?_
  rw [stored.block]
  cases found : withHash? id.hash blocks with
  | none => exact .throw _ database
  | some block =>
      obtain ⟨member, sameHash⟩ := mem_of_withHash? found
      refine .bind (.decodeStored (stored.durable block member) database) ?_
      rw [if_neg]
      · exact .throw _ database
      · intro sameIndex
        exact missing block member (BlockId.ext sameIndex sameHash)

/-! ## Adding -/

section

variable {store : BlockStore} {block : Block}

/-- A block whose hash is stored is refused. -/
theorem yields_add_duplicate (stored : Stored blocks database) (store : BlockStore)
    (duplicate : block.id.hash ∈ blocks.map (·.id.hash)) :
    Yields (store.add block) database
      (.error (.storage (.duplicateBlock block.id.display))) database := by
  unfold BlockStore.add
  refine .bind (stored.yields_contains _) ?_
  rw [if_pos]
  · exact .bind_error (.throw _ database)
  · rw [Option.isSome_iff_ne_none, Ne, withHash?_eq_none_iff]
    exact not_not_intro duplicate

/-- A block that is no child of the head is refused. -/
theorem yields_add_notChild (stored : Stored (newest :: older) database) (store : BlockStore)
    (fresh : block.id.hash ∉ (newest :: older).map (·.id.hash))
    (notChild : block.parent ≠ newest.id) :
    Yields (store.add block) database
      (.error (.storage (.notChildOfHead block.id.display newest.id.display))) database := by
  unfold BlockStore.add
  refine .bind (stored.yields_contains _) ?_
  rw [withHash?_eq_none_iff.2 fresh]
  refine .bind stored.yields_head? ?_
  dsimp only [List.head?_cons, Option.map_some]
  rw [if_pos notChild]
  exact .bind_error (.throw _ database)

/-- A new child of the head, or any block into an empty store, is added by the batch that the
workers stage. -/
theorem yields_add_of_stage (stored : Stored blocks database) {staged : Batch}
    (stages : Worker.stage (store.workers.map (·.adding block)) (BlockStore.additions block) =
      .ok staged)
    (fresh : block.id.hash ∉ blocks.map (·.id.hash))
    (child : ∀ head ∈ blocks.head?, block.parent = head.id) :
    Yields (store.add block) database (.ok ()) (database.write staged) := by
  unfold BlockStore.add
  refine .bind (stored.yields_contains _) ?_
  rw [withHash?_eq_none_iff.2 fresh]
  refine .bind stored.yields_head? ?_
  have written : Yields (do
      let batch ← MonadExcept.ofExcept <|
        Worker.stage (store.workers.map (·.adding block)) (BlockStore.additions block)
      Session.write batch) database (.ok ()) (database.write staged) := by
    rw [stages]
    exact .bind (.pure _ database) (.write _ database)
  cases blocks with
  | nil => exact written
  | cons newest older =>
      dsimp only [List.head?_cons, Option.map_some]
      rw [if_neg]
      · exact written
      · exact not_not_intro (child newest rfl)

/-- Tame workers let it be added. -/
theorem yields_add (stored : Stored blocks database) (tame : store.Tame)
    (fresh : block.id.hash ∉ blocks.map (·.id.hash))
    (child : ∀ head ∈ blocks.head?, block.parent = head.id) :
    ∃ extra, Aside extra ∧ Yields (store.add block) database (.ok ())
      (database.write (BlockStore.additions block ++ extra)) := by
  obtain ⟨extra, aside, stages⟩ := tame.stage_adding block (BlockStore.additions block)
  exact ⟨extra, aside, stored.yields_add_of_stage stages fresh child⟩

/-- An addition makes the block the newest of the chain. -/
theorem add (stored : Stored blocks database) (durable : Durable block)
    (fresh : block.id.hash ∉ blocks.map (·.id.hash))
    (child : ∀ head ∈ blocks.head?, block.parent = head.id) {extra : Batch} (aside : Aside extra) :
    Stored (block :: blocks) (database.write (BlockStore.additions block ++ extra)) where
  toChain := stored.toChain.cons fresh child durable
  head := head_additions aside
  block hash := block_additions aside (stored.block hash)

end

/-! ## Removing -/

section

variable {store : BlockStore}

theorem yields_remove_nil (stored : Stored [] database) (store : BlockStore) (id : BlockId) :
    Yields (store.remove id) database (.error (.storage .headNotFound)) database := by
  unfold BlockStore.remove
  exact .bind_error stored.yields_head_nil

/-- Only the head can be removed. -/
theorem yields_remove_notHead (stored : Stored (newest :: older) database) (store : BlockStore)
    {id : BlockId} (other : newest.id ≠ id) :
    Yields (store.remove id) database
      (.error (.storage (.notHead id.display newest.id.display))) database := by
  unfold BlockStore.remove
  refine .bind stored.yields_head ?_
  rw [if_pos other]
  exact .bind_error (.throw _ database)

/-- The head is removed as the workers let it. -/
theorem yields_remove_of_staged (stored : Stored (newest :: older) database)
    {staged : Except SyncError Batch} {result : Except SyncError Unit} {after : Database}
    (stages : Worker.stage (store.workers.map (·.removing newest))
      (BlockStore.removals newest.id (nextHead newest older)) = staged)
    (written : Yields (do
      let batch ← MonadExcept.ofExcept staged
      Session.write batch) database result after) :
    Yields (store.remove newest.id) database result after := by
  unfold BlockStore.remove
  refine .bind stored.yields_head ?_
  rw [if_neg (not_not_intro rfl)]
  refine .bind (stored.yields_block List.mem_cons_self) ?_
  rw [← stages] at written
  by_cases genesis : newest.isGenesis
  · rw [if_pos genesis]
    refine .bind (.pure false database) ?_
    rw [nextHead, if_pos genesis] at written
    exact written
  · rw [if_neg genesis]
    refine .bind (stored.yields_contains _) ?_
    rw [nextHead, if_neg genesis] at written
    exact written

/-- The batch that they stage is written. -/
theorem yields_remove_of_stage (stored : Stored (newest :: older) database) {staged : Batch}
    (stages : Worker.stage (store.workers.map (·.removing newest))
      (BlockStore.removals newest.id (nextHead newest older)) = .ok staged) :
    Yields (store.remove newest.id) database (.ok ()) (database.write staged) :=
  stored.yields_remove_of_staged stages (.bind (.pure staged database) (.write staged database))

/-- With the error of a worker, nothing is. -/
theorem yields_remove_refused (stored : Stored (newest :: older) database) {error : SyncError}
    (stages : Worker.stage (store.workers.map (·.removing newest))
      (BlockStore.removals newest.id (nextHead newest older)) = .error error) :
    Yields (store.remove newest.id) database (.error error) database :=
  stored.yields_remove_of_staged stages (.bind_error (.throw error database))

/-- Tame workers let it be removed. -/
theorem yields_remove (stored : Stored (newest :: older) database) (tame : store.Tame) :
    ∃ extra, Aside extra ∧ Yields (store.remove newest.id) database (.ok ())
      (database.write (BlockStore.removals newest.id (nextHead newest older) ++ extra)) := by
  obtain ⟨extra, aside, stages⟩ :=
    tame.stage_removing newest (BlockStore.removals newest.id (nextHead newest older))
  exact ⟨extra, aside, stored.yields_remove_of_stage stages⟩

/-- A removal makes the next block the newest of the chain. -/
theorem remove (stored : Stored (newest :: older) database) {extra : Batch} (aside : Aside extra) :
    Stored older (database.write
      (BlockStore.removals newest.id (older.head?.map Block.id) ++ extra)) where
  toChain := stored.toChain.tail
  head := by
    rw [head_removals aside, Option.map_map]
    rfl
  block hash := block_removals aside _ stored.newest_notMem (stored.block hash)

end

end Stored

end ChainFollower.Store
