import ChainFollower.Proofs.Store.Endings
import ChainFollower.Proofs.Store.Rewinding

/-!
# Sequences of requests

A store serves requests one after another, each either granted or refused.  What
holds of an empty database and is kept by every request holds at every moment.
-/

namespace ChainFollower.Store

/-- A store and the database it keeps its blocks in. -/
structure Shelf where
  store : BlockStore
  session : Session

/-- What a store can be asked to change. -/
inductive Request where
  /-- Sets the workers. -/
  | prepare (workers : List Worker)
  | add (block : Block)
  | remove (id : BlockId)
  | setStart (start : Int64)

namespace Shelf

variable {α : Type} {shelf : Shelf} {act : Storing α} {result : Except SyncError α}
  {after : Database}

/-- Runs a computation on the database. -/
def run (shelf : Shelf) (act : Storing α) : Except SyncError α × Shelf :=
  match act shelf.session with
  | .ok value session => (.ok value, { shelf with session })
  | .error error session => (.error error, { shelf with session })

/-- The result of a computation on the database. -/
def answer (shelf : Shelf) (act : Storing α) : Except SyncError α :=
  (shelf.run act).1

/-- The result of a request, and the shelf after it. -/
def serve (shelf : Shelf) : Request → Except SyncError Unit × Shelf
  | .prepare workers => (.ok (), { shelf with store := { shelf.store with workers } })
  | .add block => shelf.run (shelf.store.add block)
  | .remove id => shelf.run (shelf.store.remove id)
  | .setStart start => shelf.run (shelf.store.setStart start)

/-- The shelf after accesses that changed nothing. -/
def counted (shelf : Shelf) (accesses : Nat) : Shelf :=
  { shelf with session := { shelf.session with accesses } }

/-- Computations on the database leave the store's settings alone. -/
theorem store_run (shelf : Shelf) (act : Storing α) : (shelf.run act).2.store = shelf.store := by
  unfold run
  split <;> rfl

theorem run_eq (yields : Yields act shelf.session.database result after)
    (sound : Sound shelf.session.fault) :
    ∃ accesses, shelf.run act = (result, ⟨shelf.store, after, accesses, shelf.session.fault⟩) := by
  obtain ⟨accesses, ran⟩ := yields.run sound
  refine ⟨accesses, ?_⟩
  rw [run, ran]
  cases result <;> rfl

theorem answer_eq (yields : Yields act shelf.session.database result after)
    (sound : Sound shelf.session.fault) : shelf.answer act = result := by
  obtain ⟨accesses, ran⟩ := run_eq yields sound
  rw [answer, ran]

/-- What a computation on the database can end with, it ends with on the shelf. -/
theorem run_of_ends {Outcome : Except SyncError α → Database → Prop}
    (ends : Ends shelf.session.fault act shelf.session.database Outcome) :
    ∃ result after accesses, shelf.run act =
      (result, ⟨shelf.store, after, accesses, shelf.session.fault⟩) ∧ Outcome result after := by
  obtain ⟨result, after, accesses, ran, outcome⟩ := ends shelf.session.accesses
  refine ⟨result, after, accesses, ?_, outcome⟩
  rw [run, ran]
  cases result <;> rfl

end Shelf

/-- The shelves that requests lead to from an empty database none of whose
accesses fails.  Only requests that are admitted where they are made are
considered. -/
inductive Reachable (Admits : Shelf → Request → Prop) : Shelf → Prop
  | empty (cacheSize : UInt64) (backend : Backend) :
      Reachable Admits ⟨⟨[], cacheSize⟩, .reliable (.empty backend)⟩
  | serve {shelf : Shelf} (reachable : Reachable Admits shelf) (request : Request)
      (admitted : Admits shelf request) : Reachable Admits (shelf.serve request).2

namespace Shelf

/-- The workers of a shelf are tame, its accesses do not fail, and its database
satisfies a property together with a chain. -/
structure Keeps (Kept : List Block → Database → Prop) (blocks : List Block) (shelf : Shelf) :
    Prop where
  tame : shelf.store.Tame
  sound : Sound shelf.session.fault
  kept : Kept blocks shelf.session.database

variable {Kept Left : List Block → Database → Prop} {blocks left : List Block} {shelf : Shelf}
  {act : Storing Unit} {result : Except SyncError Unit} {after : Database}

theorem Keeps.counted (keeps : shelf.Keeps Kept blocks) (accesses : Nat) :
    (shelf.counted accesses).Keeps Kept blocks :=
  ⟨keeps.tame, keeps.sound, keeps.kept⟩

theorem Keeps.run (keeps : shelf.Keeps Kept blocks)
    (yields : Yields act shelf.session.database result after) (kept : Left left after) :
    (shelf.run act).1 = result ∧ (shelf.run act).2.Keeps Left left := by
  obtain ⟨accesses, ran⟩ := run_eq yields keeps.sound
  rw [ran]
  exact ⟨rfl, keeps.tame, keeps.sound, kept⟩

/-- A refused request changes nothing. -/
theorem Keeps.run_refused (keeps : shelf.Keeps Kept blocks)
    (yields : Yields act shelf.session.database result shelf.session.database) :
    ∃ left, (shelf.run act).2.Keeps Kept left :=
  ⟨blocks, (keeps.run yields keeps.kept).2⟩

/-! ## What requests keep -/

/-- An addition is refused, or extends the chain. -/
theorem Keeps.serve_add (lasting : Lasting Kept) (keeps : shelf.Keeps Kept blocks) (block : Block)
    (added : block.id.hash ∉ blocks.map (·.id.hash) →
      (∀ head ∈ blocks.head?, block.parent = head.id) → ∀ extra, Aside extra →
      Kept (block :: blocks)
        (shelf.session.database.write (BlockStore.additions block ++ extra))) :
    ∃ left, (shelf.serve (.add block)).2.Keeps Kept left := by
  have stored := lasting.stored keeps.kept
  by_cases fresh : block.id.hash ∈ blocks.map (·.id.hash)
  · exact keeps.run_refused (stored.yields_add_duplicate _ fresh)
  by_cases child : ∀ head ∈ blocks.head?, block.parent = head.id
  · obtain ⟨extra, aside, yields⟩ := stored.yields_add keeps.tame fresh child
    exact ⟨_, (keeps.run yields (added fresh child extra aside)).2⟩
  · cases blocks with
    | nil => exact absurd (fun _ none => nomatch none) child
    | cons newest older =>
        refine keeps.run_refused (stored.yields_add_notChild _ fresh fun same => child ?_)
        rintro _ ⟨⟩
        exact same

/-- A block above the head that is its child extends the chain that is held. -/
theorem Keeps.serve_add_child (keeps : shelf.Keeps Holds blocks) {block : Block}
    (durable : Durable block) (settled : ¬Stray block)
    (fresh : block.id.hash ∉ blocks.map (·.id.hash))
    (child : ∀ head ∈ blocks.head?, block.parent = head.id)
    (above : ∀ head ∈ blocks.head?, head.id.index < block.id.index) :
    (shelf.serve (.add block)).1 = .ok () ∧
      (shelf.serve (.add block)).2.Keeps Holds (block :: blocks) := by
  obtain ⟨extra, aside, yields⟩ := keeps.kept.toStored.yields_add keeps.tame fresh child
  exact keeps.run yields
    (keeps.kept.add durable settled fresh child (keeps.kept.lt_of_lt_head above) aside)

/-- A removal keeps what removals preserve. -/
theorem Keeps.serve_remove (lasting : Lasting Kept) (keeps : shelf.Keeps Kept blocks)
    (id : BlockId) : ∃ left, (shelf.serve (.remove id)).2.Keeps Kept left := by
  have stored := lasting.stored keeps.kept
  cases blocks with
  | nil => exact keeps.run_refused (stored.yields_remove_nil _ id)
  | cons newest older =>
      by_cases same : newest.id = id
      · subst same
        obtain ⟨extra, aside, yields⟩ := stored.yields_remove keeps.tame
        rw [stored.nextHead_eq (lasting.settled keeps.kept _ List.mem_cons_self)] at yields
        exact ⟨older, (keeps.run yields (lasting.remove keeps.kept aside)).2⟩
      · exact keeps.run_refused (stored.yields_remove_notHead _ same)

/-- A new start keeps what removals preserve. -/
theorem Keeps.serve_setStart (lasting : Lasting Kept) (keeps : shelf.Keeps Kept blocks)
    (start : Int64) : ∃ left, (shelf.serve (.setStart start)).2.Keeps Kept left := by
  have stored := lasting.stored keeps.kept
  by_cases negative : start < 0
  · exact keeps.run_refused (Stored.yields_setStart_negative _ _ negative)
  have natural : 0 ≤ start := Int64.not_lt.1 negative
  cases blocks with
  | nil => exact keeps.run_refused (stored.yields_setStart_nil _ natural)
  | cons newest older =>
      by_cases ahead : newest.id.index + 1 < start
      · exact keeps.run_refused (stored.yields_setStart_ahead _ natural ahead)
      · obtain ⟨after, unwinds, yields⟩ := stored.yields_setStart
          (lasting.settled keeps.kept) keeps.tame natural (Int64.not_lt.1 ahead)
        exact ⟨_, (keeps.run yields (lasting.unwinds unwinds keeps.kept)).2⟩

/-- A property that admitted additions extend and removals preserve is kept at
every moment. -/
theorem exists_keeps_of_reachable {Admits : Shelf → Request → Prop} (lasting : Lasting Kept)
    (empty : ∀ backend, Kept [] (.empty backend))
    (prepared : ∀ {shelf workers}, Admits shelf (.prepare workers) →
      ∀ worker ∈ workers, worker.Tame)
    (added : ∀ {shelf blocks block}, shelf.Keeps Kept blocks → Admits shelf (.add block) →
      ∃ left, (shelf.serve (.add block)).2.Keeps Kept left)
    (reachable : Reachable Admits shelf) : ∃ blocks, shelf.Keeps Kept blocks := by
  induction reachable with
  | empty cacheSize backend =>
      exact ⟨[], fun _ member => (nomatch member), sound_reliable _, empty backend⟩
  | serve _ request admitted ih =>
      obtain ⟨blocks, keeps⟩ := ih
      cases request with
      | prepare workers => exact ⟨blocks, prepared admitted, keeps.sound, keeps.kept⟩
      | add block => exact added keeps admitted
      | remove id => exact keeps.serve_remove lasting id
      | setStart start => exact keeps.serve_setStart lasting start

end Shelf

/-! ## Small stores -/

/-- An empty store none of whose accesses fails. -/
def emptyShelf : Shelf :=
  ⟨⟨[], BlockStore.defaultCacheSize⟩, .reliable (.empty .volatile)⟩

theorem emptyShelf_keeps : emptyShelf.Keeps Holds [] :=
  ⟨fun _ member => (nomatch member), sound_reliable _, .empty .volatile⟩

/-- A block that is its own parent. -/
def firstBlock : Block := ⟨⟨0, "a"⟩, ⟨0, "a"⟩, 0, [], none⟩

/-- The store of the first block. -/
def firstShelf : Shelf := (emptyShelf.serve (.add firstBlock)).2

theorem cacheSize_firstShelf : firstShelf.store.cacheSize = 20 :=
  congrArg BlockStore.cacheSize (Shelf.store_run emptyShelf _)

theorem firstShelf_keeps : firstShelf.Keeps Holds [firstBlock] :=
  (emptyShelf_keeps.serve_add_child (Json.decode?_encode_bareBlock _ _ _) (by decide)
    List.not_mem_nil (fun _ none => nomatch none) fun _ none => nomatch none).2

end ChainFollower.Store
