import ChainFollower.Proofs.Store.Linked
import ChainFollower.Proofs.Sync.Accounts
import ChainFollower.Proofs.Sync.Chronicle

/-!
# Retracing a run

The decisions of a run lead from the chain that is stored once the run is prepared to the one that
is stored in the end, whatever the remote node answers, whichever accesses fail and however the
run ends.  The event log says these decisions and nothing else, so that it can be retraced.
-/

namespace ChainFollower.Sync

open EventLog (Stream appended)
open Store

variable {σ α : Type} {scene : Scene σ} {world : σ} {blocks opening : List Block} {block : Block}
  {id : BlockId} {made : List Call} {call : Call}

/-! ## Decisions on identifiers -/

/-- The stored identifiers, newest first, after a call that is carried out.  Only the newest one
can be taken away. -/
def Call.retraced? (ids : List BlockId) : Call → Option (List BlockId)
  | .added block => some (block.id :: ids)
  | .removed id => if ids.head? = some id then some ids.tail else none

/-- The stored identifiers after calls that are carried out. -/
def retrace? (calls : List Call) (ids : List BlockId) : Option (List BlockId) :=
  calls.foldlM Call.retraced? ids

theorem retrace?_append (made : List Call) (call : Call) (ids : List BlockId) :
    retrace? (made ++ [call]) ids = (retrace? made ids).bind fun ids => call.retraced? ids := by
  unfold retrace?
  rw [List.foldlM_append]
  congr 1
  funext ids
  simp only [List.foldlM_cons, List.foldlM_nil, bind_pure]

/-! ## Shelves that track a chain -/

/-- The head and the hashes of a shelf lead to a chain, and its workers are modest. -/
structure Tracks (blocks : List Block) (shelf : Shelf) : Prop where
  modest : shelf.store.Modest
  linked : Linked blocks shelf.session.database

namespace Tracks

/-- A computation has its outcome on the shelf, and leaves its workers. -/
theorem storing (tracks : Tracks blocks (scene.shelf world)) (act : BlockStore → Storing α)
    {Outcome : Except SyncError α → Database → Prop}
    (ends : Store.Ends (scene.shelf world).session.fault (act (scene.shelf world).store)
      (scene.shelf world).session.database Outcome) {result : Except SyncError α}
    (ended : (Ledger.onPart scene.books scene.withBooks (Books.storing act) world).1 = result) :
    Outcome result (scene.shelf (Ledger.onPart scene.books scene.withBooks (Books.storing act)
        world).2).session.database ∧
      (scene.shelf (Ledger.onPart scene.books scene.withBooks (Books.storing act)
        world).2).store.Modest := by
  obtain ⟨outcome, continues⟩ := scene.ends_storing world act ends
  exact ⟨ended ▸ outcome, continues.store ▸ tracks.modest⟩

/-- It may leave the database as it was. -/
theorem unchanged (tracks : Tracks blocks (scene.shelf world)) (act : BlockStore → Storing α)
    {Outcome : Except SyncError α → Database → Prop}
    (ends : Store.Ends (scene.shelf world).session.fault (act (scene.shelf world).store)
      (scene.shelf world).session.database Outcome) {result : Except SyncError α}
    (ended : (Ledger.onPart scene.books scene.withBooks (Books.storing act) world).1 = result)
    (same : ∀ after, Outcome result after → after = (scene.shelf world).session.database) :
    Tracks blocks
      (scene.shelf (Ledger.onPart scene.books scene.withBooks (Books.storing act) world).2) := by
  obtain ⟨outcome, modest⟩ := tracks.storing act ends ended
  refine ⟨modest, ?_⟩
  rw [same _ outcome]
  exact tracks.linked

/-- Entries of the event log do not matter. -/
theorem logging (tracks : Tracks blocks (scene.shelf world))
    (entries : EventLog → List EventLog.Append) :
    Tracks blocks (scene.shelf
      (Ledger.onPart scene.books scene.withBooks (Books.logging entries) world).2) := by
  rw [scene.shelf_logging]
  exact tracks

/-- Neither do counters. -/
theorem count (tracks : Tracks blocks (scene.shelf world)) (name : String) (delta : Int64) :
    Tracks blocks (scene.shelf (scene.ledger.count name delta world).2) := by
  obtain ⟨same, modest⟩ := tracks.storing (fun _ => Counter.update name delta)
    (Counter.sameChain_update name delta) rfl
  exact ⟨modest, tracks.linked.congr same⟩

theorem add (tracks : Tracks blocks (scene.shelf world)) (settled : ¬Stray block)
    (granted : (scene.ledger.add block world).1 = .ok ()) :
    Tracks (block :: blocks) (scene.shelf (scene.ledger.add block world).2) := by
  obtain ⟨linked, modest⟩ := tracks.storing (fun store => store.add block)
    (tracks.linked.ends_add tracks.modest settled) granted
  exact ⟨modest, linked⟩

theorem remove (tracks : Tracks blocks (scene.shelf world))
    (granted : (scene.ledger.remove id world).1 = .ok ()) :
    ∃ newest older, blocks = newest :: older ∧ newest.id = id ∧
      Tracks older (scene.shelf (scene.ledger.remove id world).2) := by
  obtain ⟨⟨newest, older, same, isHead, linked⟩, modest⟩ := tracks.storing
    (fun store => store.remove id) (tracks.linked.ends_remove tracks.modest id) granted
  exact ⟨newest, older, same, isHead, modest, linked⟩

/-! ## Calls -/

theorem added (tracks : Tracks blocks (scene.shelf world)) (settled : ¬Stray block)
    (granted : (Follower.added scene.ledger block world).1 = .ok ()) :
    Tracks (block :: blocks) (scene.shelf (Follower.added scene.ledger block world).2) := by
  have stored := Follower.add_of_added_ok granted
  rw [Follower.added_of_ok stored]
  have logged := (tracks.add settled stored).logging fun log => log.addition block
  exact ((logged.count _ _).count _ _).count _ _

theorem removed (tracks : Tracks blocks (scene.shelf world))
    (granted : (Follower.removed scene.ledger id world).1 = .ok ()) :
    ∃ newest older, blocks = newest :: older ∧ newest.id = id ∧
      Tracks older (scene.shelf (Follower.removed scene.ledger id world).2) := by
  have stored := Follower.remove_of_removed_ok granted
  rw [Follower.removed_of_ok stored]
  obtain ⟨newest, older, same, isHead, tracksOlder⟩ := tracks.remove stored
  have logged := tracksOlder.logging fun log => log.removal id
  exact ⟨newest, older, same, isHead, logged.count _ _⟩

/-- A call that fails leaves the chain as it was, whatever it was about. -/
theorem refused (tracks : Tracks blocks (scene.shelf world)) {error : SyncError}
    (refused : (scene.handler.carry call world).1 = .error error) :
    Tracks blocks (scene.shelf (scene.handler.carry call world).2) := by
  cases call with
  | added block =>
      change (Follower.added scene.ledger block world).1 = .error error at refused
      change Tracks blocks (scene.shelf (Follower.added scene.ledger block world).2)
      obtain ⟨cause, stored, same⟩ := Follower.add_of_added_error refused
      rw [same]
      exact tracks.unchanged (fun store => store.add block) (BlockStore.ends_add _ block) stored
        fun _ outcome => outcome
  | removed id =>
      change (Follower.removed scene.ledger id world).1 = .error error at refused
      change Tracks blocks (scene.shelf (Follower.removed scene.ledger id world).2)
      obtain ⟨cause, stored, same⟩ := Follower.remove_of_removed_error refused
      rw [same]
      exact tracks.unchanged (fun store => store.remove id) (BlockStore.ends_remove _ id) stored
        fun _ outcome => outcome

end Tracks

/-! ## Runs -/

/-- The shelf tracks the chain that calls lead to, unless a stray block was among them. -/
def Retraced (opening : List Block) (made : List Call) (shelf : Shelf) : Prop :=
  (∀ block, .added block ∈ made → ¬Stray block) → ∃ stored, Tracks stored shelf ∧
    retrace? made (opening.map Block.id) = some (stored.map Block.id)

theorem Scene.keeps_retraced (scene : Scene σ) (opening : List Block) :
    scene.handler.Keeps scene.around fun made world =>
      Retraced opening made (scene.shelf world) where
  silent made := scene.keeps_shelf (Retraced opening made)
  granted made call world retraced granted := by
    intro settled
    obtain ⟨stored, tracks, retraced⟩ :=
      retraced fun block member => settled block (List.mem_append_left _ member)
    rw [retrace?_append, retraced, Option.bind_some]
    cases call with
    | added block =>
        have settledBlock := settled block (List.mem_append_right _ List.mem_cons_self)
        exact ⟨block :: stored, tracks.added settledBlock granted, rfl⟩
    | removed id =>
        obtain ⟨newest, older, rfl, rfl, tracksOlder⟩ := tracks.removed granted
        exact ⟨older, tracksOlder, if_pos rfl⟩
  refused made call world error retraced refused := by
    intro settled
    obtain ⟨stored, tracks, retraced⟩ := retraced settled
    exact ⟨stored, tracks.refused refused, retraced⟩

/-- What is added was served. -/
theorem Scene.served_of_mem_decisions {Kind : Block → Prop} (serves : scene.Serves Kind)
    {follower : Follower} {start final : Int64} {fuel : Nat}
    (member : .added block ∈ follower.decisions scene.around scene.ledger start final fuel world) :
    Kind block := by
  obtain ⟨machine, granted⟩ := Follower.exists_of_mem_decisions member
  obtain ⟨called, -⟩ := Option.filter_eq_some_iff.1 granted
  obtain ⟨received, answered, verdict⟩ := Machine.call?_eq_some_iff.1 called
  obtain ⟨rfl, -⟩ := Engine.child_of_verdict verdict
  obtain ⟨-, -, answer, -⟩ := Machine.received?_eq_some_iff.1 answered
  exact serves _ _ _ _ answer

/-- To prepare a run leaves the lower end of the chain. -/
theorem Scene.tracks_prepare {follower : Follower}
    (modest : ∀ worker ∈ follower.workers, worker.Modest)
    (linked : Linked blocks (scene.shelf world).session.database) {start : Int64}
    (valid : ¬start < -1) :
    ∃ left, left <:+ blocks ∧
      Tracks left (scene.shelf (follower.prepare scene.ledger start world).2) := by
  apply Follower.kept_prepare
    (fun after => ∃ left, left <:+ blocks ∧ Tracks left (scene.shelf after)) valid
  · refine ⟨blocks, List.suffix_rfl, ?_⟩
    rw [Scene.shelf_prepare]
    exact ⟨modest, linked⟩
  · rintro world ⟨left, lower, tracks⟩
    obtain ⟨⟨rest, lowerRest, linkedRest⟩, modestRest⟩ := tracks.storing
      (fun store => store.setStart start) (tracks.linked.ends_setStart tracks.modest start) rfl
    exact ⟨rest, lowerRest.trans lower, modestRest, linkedRest⟩
  · rintro world ⟨left, lower, tracks⟩
    exact ⟨left, lower, tracks.unchanged (fun _ => BlockStore.head) BlockStore.ends_head rfl
      fun _ same => same⟩
  · rintro world ⟨left, lower, tracks⟩
    exact ⟨left, lower, tracks.unchanged (fun store => store.recent) (BlockStore.ends_recent _)
      rfl fun _ same => same⟩

/-- The decisions of a run lead from a chain that is stored once it is prepared to one that is
stored in the end. -/
theorem exists_retraced {follower : Follower}
    (modest : ∀ worker ∈ follower.workers, worker.Modest)
    (linked : Linked blocks (scene.shelf world).session.database)
    (serves : scene.Serves fun block => ¬Stray block) (start final : Int64) (fuel : Nat) :
    ∃ left stored, left <:+ blocks ∧
      Linked left
        (scene.shelf (follower.prepare scene.ledger start world).2).session.database ∧
      Linked stored (scene.shelf
        (follower.sync scene.around scene.ledger start final fuel world).2).session.database ∧
      retrace? (follower.decisions scene.around scene.ledger start final fuel world)
        (left.map Block.id) = some (stored.map Block.id) := by
  by_cases valid : start < -1
  · simp only [Follower.decisions, Follower.trail, Follower.sync,
      Follower.prepare_of_invalid valid]
    exact ⟨blocks, blocks, List.suffix_rfl, linked, linked, rfl⟩
  · obtain ⟨left, lower, tracks⟩ := Scene.tracks_prepare modest linked valid
    have retraced := (scene.keeps_retraced left).sync follower start final fuel world
      fun _ => ⟨left, tracks, rfl⟩
    -- Only what was served is added, so that no decision is about a stray block.
    obtain ⟨stored, tracksStored, same⟩ :=
      retraced fun block member => Scene.served_of_mem_decisions serves member
    exact ⟨left, stored, lower, tracks.linked, tracksStored.linked, same⟩

/-- Whatever becomes of a run, the decisions that were carried out lead from the identifiers that
are stored once it is prepared to those that are stored in the end, and what the event log says
since the beginning are these decisions, each once and in order. -/
theorem log_retraces_run {follower : Follower}
    (modest : ∀ worker ∈ follower.workers, worker.Modest)
    (linked : Linked blocks (scene.shelf world).session.database)
    (serves : scene.Serves fun block => ¬Stray block)
    (writable : (scene.books world).files.failure = none) (start final : Int64) (fuel : Nat)
    {before prepared closing : Books} {decisions : List Call}
    (opened : scene.books world = before)
    (ready : scene.books (follower.prepare scene.ledger start world).2 = prepared)
    (closed : scene.books
      (follower.sync scene.around scene.ledger start final fuel world).2 = closing)
    (decided : follower.decisions scene.around scene.ledger start final fuel world = decisions) :
    (∃ left, left <:+ blocks ∧ Linked left prepared.session.database) ∧
    (∃ stored, Linked stored closing.session.database) ∧
    (∀ left stored, Linked left prepared.session.database →
      Linked stored closing.session.database →
      retrace? decisions (left.map Block.id) = some (stored.map Block.id)) ∧
    ∀ stream, closing.files.text stream =
      appended (before.files.text stream) (reported before.log stream decisions) := by
  subst opened ready closed decided
  have text := (scene.logged_sync follower start final fuel writable).text
  obtain ⟨left, stored, lower, linkedLeft, linkedStored, retraced⟩ :=
    exists_retraced modest linked serves start final fuel
  refine ⟨⟨left, lower, linkedLeft⟩, ⟨stored, linkedStored⟩, ?_, text⟩
  intro other otherStored linkedOther linkedOtherStored
  rw [linkedOther.ids_eq linkedLeft, linkedOtherStored.ids_eq linkedStored]
  exact retraced

/-- The books of the stale block, with an event log that was written before. -/
def loggedBooks : Books where
  store := staleShelf.store
  session := staleShelf.session
  log := ⟨some "log", true, true⟩
  files := ⟨some "Add block 0:a with 0 transactions\n", none, none⟩

/-- From index 1 on, the stale block is discarded without a word; then the first block is taken
back and the two blocks of the rival chain are added. -/
theorem log_retraces_run_rivalScene :
    let prepared := rivalScene.books (indexingFollower.prepare rivalScene.ledger 1 loggedBooks).2
    let closing := rivalScene.books
      (indexingFollower.sync rivalScene.around rivalScene.ledger 1 1 6 loggedBooks).2
    (∃ left stored, Linked left prepared.session.database ∧
      Linked stored closing.session.database ∧ left.map Block.id = [firstBlock.id] ∧
      stored.map Block.id = [busyBlock.id, rivalGenesis.id]) ∧
    closing.files.blocks = some ("Add block 0:a with 0 transactions\nRemove block 0:a\n" ++
      "Add block 0:z with 0 transactions\nAdd block 1:d with 1 transactions\n") ∧
    closing.files.transactions = some "Transaction t at 1:d with 2 operations\n" := by
  intro prepared closing
  let decisions := indexingFollower.decisions rivalScene.around rivalScene.ledger 1 1 6 loggedBooks
  have linked : Linked [staleBlock, firstBlock]
      (rivalScene.shelf loggedBooks).session.database := staleShelf_keeps.kept.toLinked
  have serves : rivalScene.Serves fun block => ¬Stray block := by
    intro index ahead world block answer
    have found : atIndex? index [busyBlock, rivalGenesis] = some block :=
      Except.ok.inj (Option.some.inj answer)
    rcases List.mem_pair.1 (mem_of_atIndex? found).1 with rfl | rfl <;> decide
  have ready : rivalScene.books (indexingFollower.prepare rivalScene.ledger 1 loggedBooks).2 =
      prepared := rfl
  have closed : rivalScene.books (indexingFollower.sync rivalScene.around rivalScene.ledger 1 1 6
      loggedBooks).2 = closing := rfl
  have decided : indexingFollower.decisions rivalScene.around rivalScene.ledger 1 1 6 loggedBooks =
      decisions := rfl
  obtain ⟨⟨left, lower, linkedLeft⟩, ⟨stored, linkedStored⟩, retraces, text⟩ :=
    log_retraces_run modest_indexingFollower linked serves rfl 1 1 6 rfl ready closed decided
  have retraced := retraces left stored linkedLeft linkedStored
  have fromFirst : retrace? decisions [firstBlock.id] =
      some [busyBlock.id, rivalGenesis.id] := by decide +kernel
  have fromStale : retrace? decisions [staleBlock.id, firstBlock.id] = none := by decide +kernel
  have fromNothing : retrace? decisions [] = none := by decide +kernel
  have blockLines : reported loggedBooks.log .blocks decisions = ["Remove block 0:a\n",
      "Add block 0:z with 0 transactions\n", "Add block 1:d with 1 transactions\n"] := by
    decide +kernel
  have transactionLines : reported loggedBooks.log .transactions decisions =
      ["Transaction t at 1:d with 2 operations\n"] := by decide +kernel
  refine ⟨⟨left, stored, linkedLeft, linkedStored, ?_⟩, ?_, ?_⟩
  · rcases List.suffix_cons_iff.1 lower with rfl | lower
    · nomatch fromStale.symm.trans retraced
    rcases List.suffix_cons_iff.1 lower with rfl | lower
    · exact ⟨rfl, (Option.some.inj (fromFirst.symm.trans retraced)).symm⟩
    · rw [List.suffix_nil] at lower
      subst lower
      nomatch fromNothing.symm.trans retraced
  · have said : closing.files.blocks = appended loggedBooks.files.blocks
        (reported loggedBooks.log .blocks decisions) := text .blocks
    rw [said, blockLines]
    decide +kernel
  · have said : closing.files.transactions = appended loggedBooks.files.transactions
        (reported loggedBooks.log .transactions decisions) := text .transactions
    rw [said, transactionLines]
    decide +kernel

end ChainFollower.Sync
