import ChainFollower.Proofs.Store.Steady
import ChainFollower.Proofs.Sync.Preparation
import ChainFollower.Proofs.Sync.Runs

/-!
# Recording calls again

Where no access fails, what calls record in the database depends on the workers and the
database only.  Calls that several runs make leave what they leave when one run makes them.
-/

namespace ChainFollower.Sync

open Store (BlockStore Database Steady Storing Worker)

variable {α σ : Type} {left right : Books} {scene : Scene σ} {follower : Follower}
  {chain : List Block} {world : σ}

/-! ## Books alike -/

/-- Books with the same workers and the same database, none of whose accesses fails. -/
structure Books.Alike (left right : Books) : Prop where
  workers : left.store.workers = right.store.workers
  database : left.session.database = right.session.database
  reliable : left.session.fault = fun _ _ => none
  fault : left.session.fault = right.session.fault

namespace Books.Alike

/-- A computation ends alike on both. -/
theorem storing (alike : left.Alike right) (act : BlockStore → Storing α)
    (same : act left.store = act right.store) (steady : Steady (act left.store)) :
    (left.storing act).1 = (right.storing act).1 ∧
      (left.storing act).2.Alike (right.storing act).2 := by
  obtain ⟨store, ⟨database, accesses, fault⟩, log, files⟩ := left
  obtain ⟨otherStore, ⟨otherDatabase, otherAccesses, otherFault⟩, otherLog, otherFiles⟩ := right
  obtain ⟨workers, sameDatabase, rfl, sameFault⟩ := alike
  dsimp only at workers sameDatabase sameFault same steady
  subst sameDatabase sameFault
  obtain ⟨result, after, ran⟩ := steady database
  obtain ⟨count, ended⟩ := ran accesses
  obtain ⟨otherCount, endedOther⟩ := ran otherAccesses
  unfold Books.storing
  dsimp only
  rw [← same, ended, endedOther]
  cases result with
  | ok value => exact ⟨rfl, workers, rfl, rfl, rfl⟩
  | error error => exact ⟨rfl, workers, rfl, rfl, rfl⟩

/-- Entries of the event log leave books alike. -/
theorem logging (alike : left.Alike right) (entries : EventLog → List EventLog.Append) :
    (left.logging entries).2.Alike (right.logging entries).2 :=
  ⟨alike.workers, alike.database, alike.reliable, alike.fault⟩

theorem count (alike : left.Alike right) (name : String) (delta : Int64) :
    (Ledger.ofBooks.count name delta left).2.Alike (Ledger.ofBooks.count name delta right).2 :=
  (alike.storing (fun _ => Store.Counter.update name delta) rfl
    (Store.Counter.steady_update name delta)).2

/-- So do calls. -/
theorem record (alike : left.Alike right) (call : Call) :
    (left.record call).Alike (right.record call) := by
  cases call with
  | added block =>
      obtain ⟨result, stored⟩ := alike.storing (fun store => store.add block)
        (BlockStore.add_congr alike.workers block) (BlockStore.steady_add left.store block)
      dsimp only [Books.record, Handler.carry, Follower.handler, Follower.added, Ledger.ofBooks]
      rw [result]
      split
      next => exact stored
      next => exact (((stored.logging _).count _ _).count _ _).count _ _
  | removed id =>
      obtain ⟨result, stored⟩ := alike.storing (fun store => store.remove id)
        (BlockStore.remove_congr alike.workers id) (BlockStore.steady_remove left.store id)
      dsimp only [Books.record, Handler.carry, Follower.handler, Follower.removed, Ledger.ofBooks]
      rw [result]
      split
      next => exact stored
      next => exact (stored.logging _).count _ _

theorem foldl_record (alike : left.Alike right) (calls : List Call) :
    (calls.foldl Books.record left).Alike (calls.foldl Books.record right) := by
  induction calls generalizing left right with
  | nil => exact alike
  | cons call calls ih => exact ih (alike.record call)

end Books.Alike

/-! ## What calls leave in the database -/

/-- The database after calls, if no access fails. -/
def recorded (workers : List Worker) (calls : List Call) (database : Database) : Database :=
  (calls.foldl Books.record (Scene.booksOf
    ⟨⟨workers, BlockStore.defaultCacheSize⟩, .reliable database⟩)).session.database

/-- After calls, accesses do not fail either. -/
theorem Books.fault_foldl_record {books : Books}
    (reliable : books.session.fault = fun _ _ => none) (calls : List Call) :
    (calls.foldl Books.record books).session.fault = fun _ _ => none :=
  (Alike.foldl_record ⟨rfl, rfl, reliable, rfl⟩ calls).reliable

/-- Calls leave it in all books whose accesses do not fail. -/
theorem Books.database_foldl_record {books : Books}
    (reliable : books.session.fault = fun _ _ => none) (calls : List Call) :
    (calls.foldl Books.record books).session.database =
      recorded books.store.workers calls books.session.database := by
  have alike : books.Alike (Scene.booksOf
      ⟨⟨books.store.workers, BlockStore.defaultCacheSize⟩, .reliable books.session.database⟩) :=
    ⟨rfl, rfl, reliable, reliable⟩
  exact (alike.foldl_record calls).database

/-- Calls may be recorded in two parts. -/
theorem recorded_append (workers : List Worker) (calls more : List Call) (database : Database) :
    recorded workers (calls ++ more) database =
      recorded workers more (recorded workers calls database) := by
  unfold recorded
  rw [List.foldl_append, Books.database_foldl_record (Books.fault_foldl_record rfl calls),
    Books.store_foldl_record]
  rfl

namespace Scene

/-- Until a run is under way, nothing is recorded. -/
theorem shelf_settle (scene : Scene σ) (first : Int64) (machine : Machine σ) :
    scene.shelf (Machine.settle scene.around first machine).machine.world =
      scene.shelf machine.world := by
  unfold Machine.settle
  split
  next => rfl
  next =>
    split
    next => rfl
    next =>
      have asked := scene.shelf_status machine.world
      dsimp only
      split
      next => exact asked
      next => exact asked
      next => exact asked

/-- A run leaves in the database what its calls record there. -/
theorem database_sync (follower : Follower) (holdsAt : scene.HoldsAt chain world)
    (reliable : (scene.shelf world).session.fault = fun _ _ => none) (final : Int64) (fuel : Nat) :
    (scene.shelf (follower.sync scene.around scene.ledger (-1) final fuel
        world).2).session.database =
      recorded follower.workers (follower.calls scene.around scene.ledger (-1) final fuel world)
        (scene.shelf world).session.database := by
  by_cases crowded : chain ≠ [] ∧ ¬(scene.shelf world).store.HasRoom
  · obtain ⟨after, accesses, panics, shelf⟩ :=
      sync_crowded follower holdsAt crowded.2 crowded.1
    rw [(panics final fuel).1, (panics final fuel).2]
    exact congrArg (·.session.database) shelf
  have room (nonempty : chain ≠ []) : (scene.shelf world).store.HasRoom :=
    Decidable.not_not.1 fun none => crowded ⟨nonempty, none⟩
  obtain ⟨prepared, accesses, ready, shelf⟩ := prepare_resume_counted follower holdsAt room
  have settledShelf := scene.shelf_settle (resumeIndex chain)
    ⟨startEngine follower (scene.shelf world).store.cacheSize chain, 0, prepared⟩
  rw [shelf] at settledShelf
  generalize settled : Machine.settle scene.around (resumeIndex chain) _ = progress at settledShelf
  cases progress with
  | ended result last =>
      obtain ⟨ran, none⟩ := Follower.sync_of_ended ready settled final fuel
      rw [ran, none]
      exact congrArg (·.session.database) settledShelf
  | running machine =>
      change scene.shelf machine.world = _ at settledShelf
      have fault := congrArg (·.session.fault) settledShelf
      rw [Follower.sync_of_running ready settled, Follower.calls_of_running ready settled]
      refine (congrArg (·.session.database) (books_run fuel machine)).trans ?_
      refine (Books.database_foldl_record (fault.trans reliable) _).trans ?_
      change recorded (scene.shelf machine.world).store.workers _
        (scene.shelf machine.world).session.database = _
      rw [settledShelf]
      rfl

end Scene

end ChainFollower.Sync
