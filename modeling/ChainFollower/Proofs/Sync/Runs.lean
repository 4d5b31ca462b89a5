import ChainFollower.Proofs.Sync.Calls
import ChainFollower.Proofs.Sync.Preparation

/-!
# Runs of a follower

A run of a follower is that of the machine it prepares.  What it leaves in the books is
what its calls record there, one after another.
-/

namespace ChainFollower.Sync

variable {σ : Type} {around : Surroundings σ} {ledger : Ledger σ} {follower : Follower}
  {start first final : Int64} {engine : Engine} {world prepared : σ} {machine last : Machine σ}

/-- The calls of a follower's run, in at most `fuel` steps. -/
def Follower.calls (follower : Follower) (around : Surroundings σ) (ledger : Ledger σ)
    (start final : Int64) (fuel : Nat) (world : σ) : List Call :=
  match follower.prepare ledger start world with
  | (.error _, _) => []
  | (.ok (first, engine), world) =>
      match Machine.settle around first ⟨engine, 0, world⟩ with
      | .running machine => machine.calls around (Follower.handler ledger) final fuel
      | .ended _ _ => []

namespace Follower

/-- A run that gets as far as its machine goes on as the machine does. -/
theorem sync_of_running
    (ready : follower.prepare ledger start world = (.ok (first, engine), prepared))
    (settled : Machine.settle around first ⟨engine, 0, prepared⟩ = .running machine) (fuel : Nat) :
    follower.sync around ledger start final fuel world =
      ((machine.run around (handler ledger) final fuel).1,
        (machine.run around (handler ledger) final fuel).2.world) := by
  unfold sync
  rw [ready]
  dsimp only
  unfold Engine.sync
  rw [settled]

theorem calls_of_running
    (ready : follower.prepare ledger start world = (.ok (first, engine), prepared))
    (settled : Machine.settle around first ⟨engine, 0, prepared⟩ = .running machine) (fuel : Nat) :
    follower.calls around ledger start final fuel world =
      machine.calls around (handler ledger) final fuel := by
  unfold calls
  rw [ready]
  dsimp only
  rw [settled]

/-- A run may end before its machine is under way. -/
theorem sync_of_ended {result : Except SyncError Unit}
    (ready : follower.prepare ledger start world = (.ok (first, engine), prepared))
    (settled : Machine.settle around first ⟨engine, 0, prepared⟩ = .ended result last)
    (final : Int64) (fuel : Nat) :
    follower.sync around ledger start final fuel world = (some result, last.world) ∧
      follower.calls around ledger start final fuel world = [] := by
  unfold sync calls
  rw [ready]
  dsimp only
  unfold Engine.sync
  rw [settled]
  exact ⟨rfl, rfl⟩

end Follower

/-- A follower that cannot be prepared ends at once. -/
theorem Follower.sync_of_refused {error : SyncError}
    (refused : follower.prepare ledger start world = (.error error, prepared)) (final : Int64)
    (fuel : Nat) :
    follower.sync around ledger start final fuel world = (some (.error error), prepared) ∧
      follower.calls around ledger start final fuel world = [] := by
  unfold sync calls
  rw [refused]
  exact ⟨rfl, rfl⟩

/-! ## Recording on a ledger -/

namespace Follower

/-- An addition that the store grants is logged and counted. -/
theorem added_of_ok {block : Block} (granted : (ledger.add block world).1 = .ok ()) :
    added ledger block world = (.ok (),
      (ledger.count Store.Counter.operations (Int64.ofNat block.operationCount)
        (ledger.count Store.Counter.transactions (Int64.ofNat block.transactions.length)
          (ledger.count Store.Counter.blocks 1
            (ledger.logAddition block (ledger.add block world).2).2).2).2).2) := by
  unfold added
  dsimp only
  rw [granted]
  rfl

/-- An addition that the store refuses is all that is done. -/
theorem added_of_error {block : Block} {error : SyncError}
    (refused : (ledger.add block world).1 = .error error) :
    added ledger block world =
      (.error (.context ("unable to add block to storage " ++ block.id.display) error),
        (ledger.add block world).2) := by
  unfold added
  dsimp only
  rw [refused]
  rfl

/-- A removal that the store grants is logged and counted. -/
theorem removed_of_ok {id : BlockId} (granted : (ledger.remove id world).1 = .ok ()) :
    removed ledger id world = (.ok (),
      (ledger.count Store.Counter.orphans 1
        (ledger.logRemoval id (ledger.remove id world).2).2).2) := by
  unfold removed
  dsimp only
  rw [granted]
  rfl

/-- A removal that the store refuses is all that is done. -/
theorem removed_of_error {id : BlockId} {error : SyncError}
    (refused : (ledger.remove id world).1 = .error error) :
    removed ledger id world =
      (.error (.context ("unable to remove block from storage " ++ id.display) error),
        (ledger.remove id world).2) := by
  unfold removed
  dsimp only
  rw [refused]
  rfl

/-- What is recorded was granted by the store. -/
theorem add_of_added_ok {block : Block} (granted : (added ledger block world).1 = .ok ()) :
    (ledger.add block world).1 = .ok () := by
  cases stored : (ledger.add block world).1 with
  | ok => rfl
  | error error =>
      rw [added_of_error stored] at granted
      cases granted

theorem remove_of_removed_ok {id : BlockId} (granted : (removed ledger id world).1 = .ok ()) :
    (ledger.remove id world).1 = .ok () := by
  cases stored : (ledger.remove id world).1 with
  | ok => rfl
  | error error =>
      rw [removed_of_error stored] at granted
      cases granted

/-- What is not recorded was refused by the store, and that is all that was done. -/
theorem add_of_added_error {block : Block} {error : SyncError}
    (refused : (added ledger block world).1 = .error error) :
    ∃ cause, (ledger.add block world).1 = .error cause ∧
      (added ledger block world).2 = (ledger.add block world).2 := by
  cases stored : (ledger.add block world).1 with
  | ok =>
      rw [added_of_ok stored] at refused
      cases refused
  | error cause =>
      rw [added_of_error stored]
      exact ⟨cause, rfl, rfl⟩

theorem remove_of_removed_error {id : BlockId} {error : SyncError}
    (refused : (removed ledger id world).1 = .error error) :
    ∃ cause, (ledger.remove id world).1 = .error cause ∧
      (removed ledger id world).2 = (ledger.remove id world).2 := by
  cases stored : (ledger.remove id world).1 with
  | ok =>
      rw [removed_of_ok stored] at refused
      cases refused
  | error cause =>
      rw [removed_of_error stored]
      exact ⟨cause, rfl, rfl⟩

end Follower

/-! ## Runs that end -/

/-- A run that nobody cancels and that ends well has been given an end. -/
theorem Machine.given_of_ok {handler : Handler σ}
    (uncancelled : ∀ world, around.cancelled world = false) {fuel : Nat}
    (ended : machine.run around handler final fuel = (some (.ok ()), last)) :
    final ≠ -1 := by
  obtain ⟨stopping, -, stepped⟩ := exists_reached_of_run ended
  have move := move_step around handler final stopping
  rw [stepped] at move
  cases move with
  | stopped cancelled => cases (uncancelled _).symm.trans cancelled
  | finished _ _ finished =>
      rintro rfl
      exact absurd finished (by simp [Engine.finished])

/-! ## What calls record -/

namespace Machine

variable {κ : Type} {handler : Handler σ} {kept : σ → κ} {record : κ → Call → κ}
  (keeps : ∀ value, around.Keeps fun world => kept world = value)
  (records : ∀ call world, kept (handler.carry call world).2 = record (kept world) call)
include keeps records

/-- Where calls record something that requests and waits leave alone, a step leaves what its
call records, if it makes one. -/
theorem kept_step (final : Int64) (machine : Machine σ) :
    kept (machine.step around handler final).machine.world =
      (machine.call? around).toList.foldl record (kept machine.world) := by
  cases called : machine.call? around with
  | none => exact kept_of_silent (keeps (kept machine.world)) called rfl
  | some call =>
      have asked : kept (machine.asked around) = kept machine.world :=
        (keeps (kept machine.world)).block machine.engine.next machine.ahead machine.world rfl
      have recorded : kept (handler.carry call (machine.asked around)).2 =
          record (kept machine.world) call := by
        rw [records, asked]
      cases result : (handler.carry call (machine.asked around)).1 with
      | ok =>
          rw [step_of_granted called result]
          exact recorded
      | error error =>
          rw [step_of_refused called result]
          exact recorded

/-- And a run leaves what its calls record, one after another. -/
theorem kept_run (final : Int64) (fuel : Nat) (machine : Machine σ) :
    kept (machine.run around handler final fuel).2.world =
      (machine.calls around handler final fuel).foldl record (kept machine.world) := by
  induction fuel generalizing machine with
  | zero => rfl
  | succ fuel ih =>
      have recorded := kept_step keeps records final machine
      cases stepped : machine.step around handler final with
      | ended result last =>
          rw [run_of_ended stepped, calls_of_ended stepped, ← recorded, stepped]
          rfl
      | running next =>
          rw [run_of_running stepped, calls_of_running stepped, List.foldl_append, ← recorded,
            stepped]
          exact ih next

end Machine

/-- The books after a call. -/
def Books.record (books : Books) (call : Call) : Books :=
  ((Follower.handler Ledger.ofBooks).carry call books).2

@[simp] theorem Books.store_storing {α : Type} (act : Store.BlockStore → Store.Storing α)
    (books : Books) : (books.storing act).2.store = books.store := by
  unfold storing
  split <;> rfl

@[simp] theorem Books.store_logging (entries : EventLog → List EventLog.Append) (books : Books) :
    (books.logging entries).2.store = books.store := rfl

/-- Calls leave the settings of the store alone. -/
theorem Books.store_record (books : Books) (call : Call) :
    (books.record call).store = books.store := by
  cases call with
  | added block =>
      dsimp only [record, Handler.carry, Follower.handler, Follower.added, Ledger.ofBooks]
      split <;> simp only [store_storing, store_logging]
  | removed id =>
      dsimp only [record, Handler.carry, Follower.handler, Follower.removed, Ledger.ofBooks]
      split <;> simp only [store_storing, store_logging]

theorem Books.store_foldl_record (calls : List Call) (books : Books) :
    (calls.foldl Books.record books).store = books.store := by
  induction calls generalizing books with
  | nil => rfl
  | cons call calls ih => rw [List.foldl_cons, ih, store_record]

namespace Scene

variable {scene : Scene σ}

/-- A call has the result that it has on the books alone, and records the same. -/
theorem carry_eq (call : Call) (world : σ) :
    (scene.handler.carry call world).1 =
        ((Follower.handler Ledger.ofBooks).carry call (scene.books world)).1 ∧
      scene.books (scene.handler.carry call world).2 = (scene.books world).record call := by
  unfold Books.record
  cases call with
  | added block =>
      dsimp only [Handler.carry, handler, Follower.handler, Follower.added, ledger, Ledger.within,
        Ledger.onPart]
      split
      next => exact ⟨rfl, scene.books_withBooks _ _⟩
      next =>
        refine ⟨rfl, ?_⟩
        simp only [books_withBooks]
  | removed id =>
      dsimp only [Handler.carry, handler, Follower.handler, Follower.removed, ledger,
        Ledger.within, Ledger.onPart]
      split
      next => exact ⟨rfl, scene.books_withBooks _ _⟩
      next =>
        refine ⟨rfl, ?_⟩
        simp only [books_withBooks]

/-- Requests and waits keep what is true of the books. -/
theorem keeps_books (scene : Scene σ) (Kept : Books → Prop) :
    scene.around.Keeps fun world => Kept (scene.books world) where
  status world kept := (scene.books_status world).symm ▸ kept
  block index ahead world kept := (scene.books_block index ahead world).symm ▸ kept
  rest span world kept := (scene.books_rest span world).symm ▸ kept

/-- Requests and waits keep what is true of the shelf. -/
theorem keeps_shelf (scene : Scene σ) (Kept : Store.Shelf → Prop) :
    scene.around.Keeps fun world => Kept (scene.shelf world) :=
  scene.keeps_books fun books => Kept ⟨books.store, books.session⟩

/-- What a run leaves in the books is what its calls record there. -/
theorem books_run (fuel : Nat) (machine : Machine σ) :
    scene.books (machine.run scene.around scene.handler final fuel).2.world =
      (machine.calls scene.around scene.handler final fuel).foldl Books.record
        (scene.books machine.world) :=
  Machine.kept_run (fun value => scene.keeps_books (· = value))
    (fun call world => (carry_eq call world).2) final fuel machine

/-- So does a run. -/
theorem store_run (fuel : Nat) (machine : Machine σ) :
    (scene.shelf (machine.run scene.around scene.handler final fuel).2.world).store =
      (scene.shelf machine.world).store := by
  change (scene.books _).store = (scene.books machine.world).store
  rw [books_run, Books.store_foldl_record]

/-! ## Runs without room -/

/-- Where blocks are stored and there is no room for those to start from, a run without a start
panics, whatever its end, and leaves the database. -/
theorem sync_crowded {blocks : List Block} (follower : Follower)
    (holdsAt : scene.HoldsAt blocks world)
    (crowded : ¬(scene.shelf world).store.HasRoom) (nonempty : blocks ≠ []) :
    ∃ after accesses,
      (∀ final fuel, follower.sync scene.around scene.ledger (-1) final fuel world =
          (some (.error (.panicked "capacity overflow")), after) ∧
        follower.calls scene.around scene.ledger (-1) final fuel world = []) ∧
      scene.shelf after = Store.Shelf.counted
        ⟨{ (scene.shelf world).store with workers := follower.workers },
          (scene.shelf world).session⟩ accesses := by
  obtain ⟨after, accesses, refused, shelf⟩ :=
    prepare_resume_crowded follower holdsAt crowded nonempty
  exact ⟨after, accesses, Follower.sync_of_refused refused, shelf⟩

end Scene

end ChainFollower.Sync
