import ChainFollower.Proofs.Block.Legible
import ChainFollower.Proofs.Store.Lookups
import ChainFollower.Proofs.Store.Representation

/-!
# Stores with a transaction index

`Request.follow` says which blocks are stored after a request, and `Tended` relates the blocks that
a history of requests leaves stored to the store itself, when the transaction index takes part from
the start.  The index then finds exactly the stored blocks that carry a transaction.
-/

namespace ChainFollower.Store

/-! ## Histories -/

/-- The stored blocks, newest first, after a request: a child of the head whose hash is not stored
joins them, the head leaves them, and a start that leaves no gap after the head takes away the
blocks at or above it. -/
def Request.follow (blocks : List Block) : Request → List Block
  | .prepare _ => blocks
  | .add block =>
      if block.id.hash ∉ blocks.map (·.id.hash) ∧ ∀ head ∈ blocks.head?, block.parent = head.id then
        block :: blocks
      else blocks
  | .remove id => if ∃ head ∈ blocks.head?, head.id = id then blocks.tail else blocks
  | .setStart start =>
      if 0 ≤ start ∧ ∀ head ∈ blocks.head?, start ≤ head.id.index + 1 then
        blocks.dropWhile fun block => start ≤ block.id.index
      else blocks

/-- Requests that a store with an index is meant for: the transaction index stays the only worker,
and a block that is offered is above the head, not stray, survives its JSON form and has
transactions with hashes without slashes. -/
def Suits (admits : Block → Prop) (blocks : List Block) : Request → Prop
  | .prepare workers => workers = [Worker.transactionIndex]
  | .add block => Durable block ∧ ¬Stray block ∧ Tidy block ∧
      (∀ head ∈ blocks.head?, head.id.index < block.id.index) ∧ admits block
  | .remove _ => True
  | .setStart _ => True

/-- The blocks stored on a shelf, which requests and updates of counters led to from an empty
database with the transaction index as its worker. -/
inductive Tended (admits : Block → Prop) : List Block → Shelf → Prop
  | empty (cacheSize : UInt64) (backend : Backend) :
      Tended admits [] ⟨⟨[Worker.transactionIndex], cacheSize⟩, .reliable (.empty backend)⟩
  | serve {blocks : List Block} {shelf : Shelf} (tended : Tended admits blocks shelf)
      (request : Request) (suits : Suits admits blocks request) :
      Tended admits (request.follow blocks) (shelf.serve request).2
  | count {blocks : List Block} {shelf : Shelf} (tended : Tended admits blocks shelf)
      (name : String) (delta : Int64) :
      Tended admits blocks (shelf.run (Counter.update name delta)).2

/-! ## What requests keep -/

namespace Shelf

/-- The transaction index is the worker of a shelf, its accesses do not fail, and its database has
the index of a chain. -/
structure Tends (blocks : List Block) (shelf : Shelf) : Prop where
  workers : shelf.store.workers = [Worker.transactionIndex]
  sound : Sound shelf.session.fault
  indexes : Indexes blocks shelf.session.database

variable {blocks older left : List Block} {newest block : Block} {shelf : Shelf}
  {database after : Database} {act : Storing Unit} {result : Except SyncError Unit}

theorem Tends.run (tends : shelf.Tends blocks)
    (yields : Yields act shelf.session.database result after) (indexes : Indexes left after) :
    (shelf.run act).1 = result ∧ (shelf.run act).2.Tends left ∧
      (shelf.run act).2.session.database = after := by
  obtain ⟨accesses, ran⟩ := run_eq yields tends.sound
  rw [ran]
  exact ⟨rfl, ⟨tends.workers, tends.sound, indexes⟩, rfl⟩

/-- A refused request changes nothing. -/
theorem Tends.run_refused (tends : shelf.Tends blocks)
    (yields : Yields act shelf.session.database result shelf.session.database) :
    (shelf.run act).1 = result ∧ (shelf.run act).2.Tends blocks ∧
      (shelf.run act).2.session.database = shelf.session.database :=
  tends.run yields tends.indexes

/-- A new child above the head is added, with its transactions. -/
theorem Tends.serve_add_child (tends : shelf.Tends blocks) (durable : Durable block)
    (settled : ¬Stray block) (tidy : Tidy block) (fresh : block.id.hash ∉ blocks.map (·.id.hash))
    (child : ∀ head ∈ blocks.head?, block.parent = head.id)
    (above : ∀ head ∈ blocks.head?, head.id.index < block.id.index) :
    (shelf.serve (.add block)).1 = .ok () ∧ (shelf.serve (.add block)).2.Tends (block :: blocks) ∧
      SameCounters shelf.session.database (shelf.serve (.add block)).2.session.database := by
  have stages : Worker.stage (shelf.store.workers.map (·.adding block))
      (BlockStore.additions block) = .ok (BlockStore.additions block ++ entering block) := by
    rw [tends.workers]
    rfl
  have indexes := tends.indexes.add durable settled tidy fresh child
    (tends.indexes.lt_of_lt_head above)
  obtain ⟨granted, tendsAfter, same⟩ :=
    tends.run (tends.indexes.yields_add_of_stage stages fresh child) indexes
  refine ⟨granted, tendsAfter, ?_⟩
  rw [show (shelf.serve (.add block)).2.session.database = _ from same]
  exact sameCounters_write (remote_of_map_key (map_key_entering block))
    (BlockStore.ofChain_additions block)

/-- A block whose hash is stored, or that is no child of the head, is refused. -/
theorem Tends.serve_add_refused (tends : shelf.Tends blocks)
    (refused : ¬(block.id.hash ∉ blocks.map (·.id.hash) ∧
      ∀ head ∈ blocks.head?, block.parent = head.id)) :
    ∃ error, (shelf.serve (.add block)).1 = .error error ∧
      (shelf.serve (.add block)).2.Tends blocks := by
  have stored := tends.indexes.toStored
  by_cases fresh : block.id.hash ∈ blocks.map (·.id.hash)
  · obtain ⟨duplicate, tendsAfter, -⟩ :=
      tends.run_refused (stored.yields_add_duplicate shelf.store fresh)
    exact ⟨_, duplicate, tendsAfter⟩
  · cases blocks with
    | nil => exact absurd ⟨fresh, fun _ none => nomatch none⟩ refused
    | cons newest older =>
        have notChild : block.parent ≠ newest.id := by
          refine fun same => refused ⟨fresh, ?_⟩
          rintro _ ⟨⟩
          exact same
        obtain ⟨stranger, tendsAfter, -⟩ :=
          tends.run_refused (stored.yields_add_notChild shelf.store fresh notChild)
        exact ⟨_, stranger, tendsAfter⟩

/-- A store with the transaction index removes blocks with their transactions, and leaves counters
alone. -/
theorem removing_indexes {store : BlockStore} (workers : store.workers = [Worker.transactionIndex])
    (database : Database) :
    Removing store fun blocks after => Indexes blocks after ∧ SameCounters database after where
  stored kept := kept.1.toStored
  removes := by
    rintro newest older between ⟨indexes, same⟩
    have stages : Worker.stage (store.workers.map (·.removing newest))
        (BlockStore.removals newest.id (nextHead newest older)) =
        .ok (BlockStore.removals newest.id (nextHead newest older) ++ leaving newest) := by
      rw [workers]
      rfl
    have removed := indexes.yields_remove_of_stage stages
    rw [indexes.nextHead_eq (indexes.settled newest List.mem_cons_self)] at removed
    refine ⟨_, ⟨indexes.remove, same.trans ?_⟩, removed⟩
    exact sameCounters_write (remote_of_map_key (map_key_leaving newest))
      (BlockStore.ofChain_removals newest.id (older.head?.map Block.id))

/-- The head is removed, with its transactions. -/
theorem Tends.serve_remove_head (tends : shelf.Tends (newest :: older)) :
    (shelf.serve (.remove newest.id)).1 = .ok () ∧
      (shelf.serve (.remove newest.id)).2.Tends older ∧
      SameCounters shelf.session.database
        (shelf.serve (.remove newest.id)).2.session.database := by
  obtain ⟨after, ⟨indexes, counters⟩, yields⟩ :=
    (removing_indexes tends.workers shelf.session.database).removes ⟨tends.indexes, .refl _⟩
  obtain ⟨granted, tendsAfter, same⟩ := tends.run yields indexes
  refine ⟨granted, tendsAfter, ?_⟩
  rw [show (shelf.serve (.remove newest.id)).2.session.database = _ from same]
  exact counters

/-- A start that leaves no gap after the head takes away the blocks at or above it. -/
theorem Tends.serve_setStart_reached {start : Int64} (tends : shelf.Tends blocks)
    (natural : 0 ≤ start) (reached : ∀ head ∈ blocks.head?, start ≤ head.id.index + 1) :
    (shelf.serve (.setStart start)).1 = .ok () ∧
      (shelf.serve (.setStart start)).2.Tends
        (blocks.dropWhile fun block => start ≤ block.id.index) ∧
      SameCounters shelf.session.database
        (shelf.serve (.setStart start)).2.session.database := by
  cases blocks with
  | nil =>
      obtain ⟨granted, tendsAfter, same⟩ :=
        tends.run_refused (tends.indexes.yields_setStart_nil shelf.store natural)
      refine ⟨granted, tendsAfter, ?_⟩
      rw [show (shelf.serve (.setStart start)).2.session.database = _ from same]
      exact .refl _
  | cons newest older =>
      obtain ⟨after, ⟨indexes, counters⟩, yields⟩ :=
        (removing_indexes tends.workers shelf.session.database).yields_setStart
          ⟨tends.indexes, .refl _⟩ natural (reached newest rfl)
      obtain ⟨granted, tendsAfter, same⟩ := tends.run yields indexes
      refine ⟨granted, tendsAfter, ?_⟩
      rw [show (shelf.serve (.setStart start)).2.session.database = _ from same]
      exact counters

/-- Whatever is requested, the index follows the stored blocks. -/
theorem Tends.serve {admits : Block → Prop} (tends : shelf.Tends blocks) (request : Request)
    (suits : Suits admits blocks request) : (shelf.serve request).2.Tends (request.follow blocks) := by
  have stored := tends.indexes.toStored
  cases request with
  | prepare workers => exact ⟨suits, tends.sound, tends.indexes⟩
  | add block =>
      obtain ⟨durable, settled, tidy, above, -⟩ := suits
      rw [Request.follow]
      split
      next granted =>
        exact (tends.serve_add_child durable settled tidy granted.1 granted.2 above).2.1
      next refused =>
        obtain ⟨_, -, tendsAfter⟩ := tends.serve_add_refused refused
        exact tendsAfter
  | remove id =>
      rw [Request.follow]
      cases blocks with
      | nil =>
          rw [if_neg fun head => nomatch head]
          exact (tends.run_refused (stored.yields_remove_nil _ id)).2.1
      | cons newest older =>
          split
          next isHead =>
            obtain ⟨_, ⟨⟩, rfl⟩ := isHead
            exact tends.serve_remove_head.2.1
          next other =>
            refine (tends.run_refused (stored.yields_remove_notHead _ fun same => ?_)).2.1
            exact other ⟨newest, rfl, same⟩
  | setStart start =>
      rw [Request.follow]
      split
      next granted => exact (tends.serve_setStart_reached granted.1 granted.2).2.1
      next refused =>
        by_cases negative : start < 0
        · exact (tends.run_refused (Stored.yields_setStart_negative _ _ negative)).2.1
        · have natural : 0 ≤ start := Int64.not_lt.1 negative
          cases blocks with
          | nil => exact absurd ⟨natural, fun _ none => nomatch none⟩ refused
          | cons newest older =>
              refine (tends.run_refused (stored.yields_setStart_ahead _ natural ?_)).2.1
              refine Int64.not_le.1 fun reached => refused ⟨natural, ?_⟩
              rintro _ ⟨⟩
              exact reached

/-- Whether it succeeds or not, the update of a counter leaves the index alone. -/
theorem Tends.run_update (tends : shelf.Tends blocks) (name : String) (delta : Int64) :
    (shelf.run (Counter.update name delta)).2.Tends blocks := by
  obtain ⟨result, after, accesses, ran, same⟩ :=
    run_of_ends (Counter.sameEntries_update name delta)
  rw [ran]
  exact ⟨tends.workers, tends.sound, tends.indexes.congr same⟩

end Shelf

variable {admits : Block → Prop} {blocks : List Block} {shelf : Shelf}

theorem Tended.tends (tended : Tended admits blocks shelf) : shelf.Tends blocks := by
  induction tended with
  | empty cacheSize backend => exact ⟨rfl, sound_reliable _, .empty backend⟩
  | serve _ request suits ih => exact ih.serve request suits
  | count _ name delta ih => exact ih.run_update name delta

/-- Lookups of blocks answer from the stored blocks. -/
theorem Shelf.Tends.answers (tends : shelf.Tends blocks) : Answers blocks shelf := by
  have keeps : shelf.Keeps Holds blocks :=
    ⟨tame_of_atMostIndex (Or.inr tends.workers), tends.sound, tends.indexes.toHolds⟩
  exact keeps.answers

/-! ## The index -/

/-- After any history of requests, granted or refused, a lookup in the index finds each stored
block that carries a transaction once, and nothing else; and the blocks that the history leaves
stored are those that the store itself answers with. -/
theorem transactions_found_exactly (tended : Tended (fun _ => True) blocks shelf) (hash : String)
    (slashless : Slashless hash) :
    Answers blocks shelf ∧ ∃ found : List BlockId,
      shelf.answer (findTransaction hash) = .ok found ∧ found.Nodup ∧
      ∀ id, id ∈ found ↔ ∃ block ∈ blocks,
        (∃ transaction ∈ block.transactions, transaction.id.hash = hash) ∧ block.id = id := by
  have tends := tended.tends
  obtain ⟨found, distinct, members, yields⟩ := tends.indexes.yields_findTransaction slashless
  exact ⟨tends.answers, found, Shelf.answer_eq yields tends.sound, distinct, members⟩

/-- An empty store with the transaction index. -/
def indexedShelf : Shelf :=
  ⟨⟨[Worker.transactionIndex], BlockStore.defaultCacheSize⟩, .reliable (.empty .volatile)⟩

/-- A block that carries one transaction twice. -/
def twiceBlock : Block :=
  ⟨⟨0, "a"⟩, ⟨0, "a"⟩, 0, [⟨⟨"t"⟩, [], none⟩, ⟨⟨"t"⟩, [], none⟩], none⟩

/-- A block that carries it once more, along with another whose hash it begins. -/
def onceBlock : Block :=
  ⟨⟨2, "b/c"⟩, ⟨0, "a"⟩, 0, [⟨⟨"tt"⟩, [], none⟩, ⟨⟨"t"⟩, [], none⟩], none⟩

theorem durable_twiceBlock : Durable twiceBlock :=
  Json.decode?_encode (fun _ member => (List.not_mem_nil member).elim) (by decide)

theorem durable_onceBlock : Durable onceBlock :=
  Json.decode?_encode (fun _ member => (List.not_mem_nil member).elim) (by decide)

/-- The first block is removed and added again before the second. -/
def restoredShelf : Shelf :=
  [Request.add twiceBlock, .remove ⟨0, "a"⟩, .add twiceBlock, .add onceBlock].foldl
    (fun shelf request => (shelf.serve request).2) indexedShelf

theorem tended_restoredShelf {admits : Block → Prop} (twice : admits twiceBlock)
    (once : admits onceBlock) : Tended admits [onceBlock, twiceBlock] restoredShelf := by
  have empty : Tended admits [] indexedShelf := .empty _ _
  have added {shelf : Shelf} (tended : Tended admits [] shelf) :
      Tended admits [twiceBlock] (shelf.serve (.add twiceBlock)).2 :=
    tended.serve (.add twiceBlock)
      ⟨durable_twiceBlock, by decide, by decide, fun _ none => (nomatch none), twice⟩
  have removed : Tended admits [] _ := (added empty).serve (.remove ⟨0, "a"⟩) trivial
  exact (added removed).serve (.add onceBlock)
    ⟨durable_onceBlock, by decide, by decide, by decide, once⟩

/-- The transaction is found in both blocks. -/
theorem transactions_found_exactly_restored : Slashless "t" ∧
    Tended (fun _ => True) [onceBlock, twiceBlock] restoredShelf ∧
    ∃ found : List BlockId, restoredShelf.answer (findTransaction "t") = .ok found ∧
      found.Nodup ∧ ∀ id, id ∈ found ↔ id = ⟨0, "a"⟩ ∨ id = ⟨2, "b/c"⟩ := by
  have tended : Tended (fun _ => True) [onceBlock, twiceBlock] restoredShelf :=
    tended_restoredShelf trivial trivial
  obtain ⟨-, found, answered, distinct, members⟩ :=
    transactions_found_exactly tended "t" (by decide)
  refine ⟨by decide, tended, found, answered, distinct, fun id => ?_⟩
  rw [members]
  simp [onceBlock, twiceBlock, eq_comm, or_comm]

end ChainFollower.Store
