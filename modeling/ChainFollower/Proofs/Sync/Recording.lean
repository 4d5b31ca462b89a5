import ChainFollower.Proofs.Store.Counters
import ChainFollower.Proofs.Store.Requests
import ChainFollower.Sync.Follower

/-!
# Recording decisions

A scene is a world with books in it that nothing but the ledger changes.  Recording
a decision is a request to the block store; the event log and the counters, whatever
becomes of them, leave the chain alone.
-/

namespace ChainFollower.Sync

open Store (Holds Request SameChain Storing)

/-- Surroundings in a world that has books in it, which only the ledger changes. -/
structure Scene (σ : Type) where
  around : Surroundings σ
  books : σ → Books
  withBooks : σ → Books → σ
  books_withBooks : ∀ world new, books (withBooks world new) = new
  books_status : ∀ world, books (around.status world).2 = books world
  books_block : ∀ index ahead world, books (around.block index ahead world).2 = books world
  books_rest : ∀ span world, books (around.rest span world) = books world

/-- The failure of a refused addition. -/
def additionFailure (block : Block) (cause : StorageError) : SyncError :=
  .context ("unable to add block to storage " ++ block.id.display) (.storage cause)

namespace Scene

variable {σ α : Type} (scene : Scene σ) (world : σ)

/-- The ledger of the books. -/
def ledger : Ledger σ :=
  Ledger.ofBooks.within scene.books scene.withBooks

/-- The handler that records decisions in the books. -/
def handler : Handler σ :=
  Follower.handler scene.ledger

/-- The block store of the books, with its database. -/
def shelf : Store.Shelf :=
  ⟨(scene.books world).store, (scene.books world).session⟩

theorem shelf_status : scene.shelf (scene.around.status world).2 = scene.shelf world := by
  rw [shelf, books_status]
  rfl

theorem shelf_block (index : Int64) (ahead : Nat) :
    scene.shelf (scene.around.block index ahead world).2 = scene.shelf world := by
  rw [shelf, books_block]
  rfl

theorem shelf_rest (span : Duration) :
    scene.shelf (scene.around.rest span world) = scene.shelf world := by
  rw [shelf, books_rest]
  rfl

/-- A computation on the database of the books is one on the shelf. -/
theorem shelf_storing (act : Store.BlockStore → Storing α) :
    (Ledger.onPart scene.books scene.withBooks (Books.storing act) world).1 =
        ((scene.shelf world).run (act (scene.shelf world).store)).1 ∧
      scene.shelf (Ledger.onPart scene.books scene.withBooks (Books.storing act) world).2 =
        ((scene.shelf world).run (act (scene.shelf world).store)).2 := by
  unfold Ledger.onPart Books.storing Store.Shelf.run shelf
  dsimp only
  cases act (scene.books world).store (scene.books world).session
  · exact ⟨rfl, by rw [books_withBooks]⟩
  · exact ⟨rfl, by rw [books_withBooks]⟩

/-- Entries of the event log leave the shelf alone. -/
theorem shelf_logging (entries : EventLog → List EventLog.Append) :
    scene.shelf (Ledger.onPart scene.books scene.withBooks (Books.logging entries) world).2 =
      scene.shelf world := by
  unfold Ledger.onPart Books.logging shelf
  dsimp only
  rw [books_withBooks]

variable {scene world} {blocks : List Block}

/-- A counter, updated or not, leaves the chain that is held. -/
theorem keeps_count (keeps : (scene.shelf world).Keeps Holds blocks) (name : String)
    (delta : Int64) : (scene.shelf (scene.ledger.count name delta world).2).Keeps Holds blocks := by
  obtain ⟨result, after, accesses, ran, same⟩ :=
    Store.Counter.sameChain_update name delta (scene.shelf world).session.accesses
  have counted : scene.shelf (scene.ledger.count name delta world).2 =
      ((scene.shelf world).run (Store.Counter.update name delta)).2 :=
    (scene.shelf_storing world fun _ => Store.Counter.update name delta).2
  have ranShelf : (scene.shelf world).run (Store.Counter.update name delta) =
      (result, ⟨(scene.shelf world).store, after, accesses,
        (scene.shelf world).session.fault⟩) := by
    rw [Store.Shelf.run, ran]
    cases result <;> rfl
  rw [counted, ranShelf]
  exact ⟨keeps.tame, keeps.sound, keeps.kept.congr same⟩

/-! ## Decisions -/

/-- A granted addition is recorded, whatever becomes of the log and the counters. -/
theorem handler_added {block : Block}
    (granted : ((scene.shelf world).serve (.add block)).1 = .ok ())
    (keeps : ((scene.shelf world).serve (.add block)).2.Keeps Holds blocks) :
    (scene.handler.added block world).1 = .ok () ∧
      (scene.shelf (scene.handler.added block world).2).Keeps Holds blocks := by
  obtain ⟨result, after⟩ := scene.shelf_storing world fun store => store.add block
  have answered : (scene.ledger.add block world).1 = .ok () := result.trans granted
  have logged : scene.shelf (scene.ledger.logAddition block (scene.ledger.add block world).2).2 =
      scene.shelf (scene.ledger.add block world).2 :=
    scene.shelf_logging _ fun log => log.addition block
  change (Follower.added scene.ledger block world).1 = _ ∧
    (scene.shelf (Follower.added scene.ledger block world).2).Keeps Holds blocks
  unfold Follower.added
  dsimp only
  rw [answered]
  refine ⟨rfl, keeps_count (keeps_count (keeps_count ?_ _ _) _ _) _ _⟩
  exact (logged.trans after).symm ▸ keeps

/-- A refused addition is a failed decision. -/
theorem handler_added_refused {block : Block} {error : SyncError}
    (refused : ((scene.shelf world).serve (.add block)).1 = .error error) :
    (scene.handler.added block world).1 =
        .error (.context ("unable to add block to storage " ++ block.id.display) error) ∧
      scene.shelf (scene.handler.added block world).2 =
        ((scene.shelf world).serve (.add block)).2 := by
  obtain ⟨result, after⟩ := scene.shelf_storing world fun store => store.add block
  have answered : (scene.ledger.add block world).1 = .error error := result.trans refused
  change (Follower.added scene.ledger block world).1 = _ ∧
    scene.shelf (Follower.added scene.ledger block world).2 = _
  unfold Follower.added
  dsimp only
  rw [answered]
  exact ⟨rfl, after⟩

/-- A granted removal is recorded, whatever becomes of the log and the counters. -/
theorem handler_removed {id : BlockId}
    (granted : ((scene.shelf world).serve (.remove id)).1 = .ok ())
    (keeps : ((scene.shelf world).serve (.remove id)).2.Keeps Holds blocks) :
    (scene.handler.removed id world).1 = .ok () ∧
      (scene.shelf (scene.handler.removed id world).2).Keeps Holds blocks := by
  obtain ⟨result, after⟩ := scene.shelf_storing world fun store => store.remove id
  have answered : (scene.ledger.remove id world).1 = .ok () := result.trans granted
  have logged : scene.shelf (scene.ledger.logRemoval id (scene.ledger.remove id world).2).2 =
      scene.shelf (scene.ledger.remove id world).2 :=
    scene.shelf_logging _ fun log => log.removal id
  change (Follower.removed scene.ledger id world).1 = _ ∧
    (scene.shelf (Follower.removed scene.ledger id world).2).Keeps Holds blocks
  unfold Follower.removed
  dsimp only
  rw [answered]
  refine ⟨rfl, keeps_count ?_ _ _⟩
  exact (logged.trans after).symm ▸ keeps

/-! ## Decisions about a chain -/

/-- What becomes of a block above the head: it is added to the chain, or it is refused
because its hash is stored or because it is no child of the head. -/
inductive Addition (scene : Scene σ) (world : σ) (blocks : List Block) (block : Block) : Prop
  | granted (child : ∀ head ∈ blocks.head?, block.parent = head.id)
      (result : (scene.handler.added block world).1 = .ok ())
      (keeps : (scene.shelf (scene.handler.added block world).2).Keeps Holds (block :: blocks))
  | refused (cause : StorageError)
      (reason : cause = .duplicateBlock block.id.display ∧
          block.id.hash ∈ blocks.map (·.id.hash) ∨
        ∃ head ∈ blocks.head?, block.parent ≠ head.id ∧
          cause = .notChildOfHead block.id.display head.id.display)
      (result : (scene.handler.added block world).1 = .error (additionFailure block cause))
      (keeps : (scene.shelf (scene.handler.added block world).2).Keeps Holds blocks)
      (same : (scene.shelf (scene.handler.added block world).2).session.database =
        (scene.shelf world).session.database)

/-- A refused request leaves the database as it was. -/
theorem addition_refused {block : Block} {cause : StorageError}
    (keeps : (scene.shelf world).Keeps Holds blocks)
    (reason : cause = .duplicateBlock block.id.display ∧
        block.id.hash ∈ blocks.map (·.id.hash) ∨
      ∃ head ∈ blocks.head?, block.parent ≠ head.id ∧
        cause = .notChildOfHead block.id.display head.id.display)
    (yields : Store.Yields ((scene.shelf world).store.add block)
      (scene.shelf world).session.database (.error (.storage cause))
      (scene.shelf world).session.database) :
    Addition scene world blocks block := by
  obtain ⟨accesses, ran⟩ := Store.Shelf.run_eq yields keeps.sound
  have served : (scene.shelf world).serve (.add block) = (.error (.storage cause),
      ⟨(scene.shelf world).store, (scene.shelf world).session.database, accesses,
        (scene.shelf world).session.fault⟩) := ran
  obtain ⟨result, after⟩ := handler_added_refused (congrArg Prod.fst served)
  rw [served] at after
  refine .refused cause reason result ?_ ?_
  · rw [after]
    exact ⟨keeps.tame, keeps.sound, keeps.kept⟩
  · rw [after]

/-- What becomes of a block above the head that can be stored. -/
theorem addition (keeps : (scene.shelf world).Keeps Holds blocks) {block : Block}
    (durable : Store.Durable block) (settled : ¬Store.Stray block)
    (above : ∀ head ∈ blocks.head?, head.id.index < block.id.index) :
    Addition scene world blocks block := by
  have stored := keeps.kept.toStored
  by_cases fresh : block.id.hash ∈ blocks.map (·.id.hash)
  · exact addition_refused keeps (Or.inl ⟨rfl, fresh⟩) (stored.yields_add_duplicate _ fresh)
  by_cases child : ∀ head ∈ blocks.head?, block.parent = head.id
  · obtain ⟨served, keepsAdded⟩ := keeps.serve_add_child durable settled fresh child above
    obtain ⟨result, keepsAfter⟩ := handler_added served keepsAdded
    exact .granted child result keepsAfter
  · cases blocks with
    | nil => exact absurd (fun _ none => nomatch none) child
    | cons newest older =>
        have other : block.parent ≠ newest.id := by
          intro same
          refine child ?_
          rintro _ ⟨⟩
          exact same
        exact addition_refused keeps (Or.inr ⟨newest, rfl, other, rfl⟩)
          (stored.yields_add_notChild _ fresh other)

/-- The newest block of the chain can be removed. -/
theorem removal {newest : Block} (keeps : (scene.shelf world).Keeps Holds (newest :: blocks)) :
    (scene.handler.removed newest.id world).1 = .ok () ∧
      (scene.shelf (scene.handler.removed newest.id world).2).Keeps Holds blocks := by
  have stored := keeps.kept.toStored
  obtain ⟨extra, aside, yields⟩ := stored.yields_remove keeps.tame
  rw [stored.nextHead_eq (keeps.kept.settled newest List.mem_cons_self)] at yields
  obtain ⟨served, keepsRemoved⟩ := keeps.run yields (keeps.kept.remove aside)
  exact handler_removed served keepsRemoved

/-! ## A scene of its own -/

/-- The books alone, with a remote node that answers from a chain. -/
def ofChain (status : NetworkStatus) (remote : Int64 → Option Block) : Scene Books where
  around :=
    { cancelled := fun _ => false
      status := fun books => (some (.ok status), books)
      block := fun index _ books => (some (.ok (remote index)), books)
      rest := fun _ books => books }
  books := id
  withBooks := fun _ new => new
  books_withBooks := fun _ _ => rfl
  books_status := fun _ => rfl
  books_block := fun _ _ _ => rfl
  books_rest := fun _ _ => rfl

/-- Books that log nothing. -/
def booksOf (shelf : Store.Shelf) : Books :=
  ⟨shelf.store, shelf.session, ⟨none, false, false⟩, .fresh⟩

end Scene

end ChainFollower.Sync
