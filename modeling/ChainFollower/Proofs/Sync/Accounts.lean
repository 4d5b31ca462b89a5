import ChainFollower.Proofs.Store.Tally
import ChainFollower.Proofs.Sync.Convergence
import ChainFollower.Proofs.Sync.Trails
import Mathlib.Algebra.GroupWithZero.Nat

/-!
# Accounts

What the counters and the number of blocks amount to after a run is settled by the calls that
were carried out.  Whatever the remote node answers, whenever the run is cancelled, however it
ends and whatever becomes of the event log, the counters have grown by what those calls add and
the blocks are those that were stored when the books were prepared, with the ones added and
without the ones removed.  What was discarded to prepare the books is counted nowhere.
-/

namespace ChainFollower.Sync

open Store
open Store.Counter (Fits Reads share)

variable {σ α : Type} {scene : Scene σ} {world : σ}

/-- The block that a call adds. -/
def Call.added? : Call → Option Block
  | .added block => some block
  | .removed _ => none

/-- The block that a call removes. -/
def Call.removed? : Call → Option BlockId
  | .added _ => none
  | .removed id => some id

/-- What a call adds to a counter when it is carried out. -/
def Call.growth (name : String) : Call → Nat
  | .added block => share Counter.blocks name 1 +
      share Counter.transactions name block.transactions.length +
      share Counter.operations name block.operationCount
  | .removed _ => share Counter.orphans name 1

/-- What calls add to a counter. -/
def growth (name : String) (calls : List Call) : Nat :=
  (calls.map (Call.growth name)).sum

/-- An event log of any kind: what it does leaves the store and its database alone. -/
structure Scene.Journal (scene : Scene σ) where
  addition : Block → σ → Except SyncError Unit × σ
  removal : BlockId → σ → Except SyncError Unit × σ
  shelf_addition : ∀ block world, scene.shelf (addition block world).2 = scene.shelf world
  shelf_removal : ∀ id world, scene.shelf (removal id world).2 = scene.shelf world

/-- The ledger of the books with another event log. -/
def Scene.journaled (scene : Scene σ) (journal : scene.Journal) : Ledger σ :=
  { scene.ledger with logAddition := journal.addition, logRemoval := journal.removal }

/-! ## Steps on the shelf -/

/-- A shelf has the settings and the faults of an earlier one. -/
structure Continues (before after : Shelf) : Prop where
  store : after.store = before.store
  fault : after.session.fault = before.session.fault

theorem Continues.trans {first second third : Shelf} (early : Continues first second)
    (late : Continues second third) : Continues first third :=
  ⟨late.store.trans early.store, late.fault.trans early.fault⟩

/-- A computation on the database of the books ends as it does on the shelf. -/
theorem Scene.ends_storing (scene : Scene σ) (world : σ) (act : BlockStore → Storing α)
    {Outcome : Except SyncError α → Database → Prop}
    (ends : Store.Ends (scene.shelf world).session.fault (act (scene.shelf world).store)
      (scene.shelf world).session.database Outcome) :
    Outcome (Ledger.onPart scene.books scene.withBooks (Books.storing act) world).1
        (scene.shelf (Ledger.onPart scene.books scene.withBooks (Books.storing act)
          world).2).session.database ∧
      Continues (scene.shelf world)
        (scene.shelf (Ledger.onPart scene.books scene.withBooks (Books.storing act) world).2) := by
  obtain ⟨result, after⟩ := scene.shelf_storing world act
  obtain ⟨ended, database, count, ran, outcome⟩ := ends (scene.shelf world).session.accesses
  have ranShelf : (scene.shelf world).run (act (scene.shelf world).store) =
      (ended, ⟨(scene.shelf world).store, database, count, (scene.shelf world).session.fault⟩) := by
    unfold Shelf.run
    rw [ran]
    cases ended <;> rfl
  rw [result, after, ranShelf]
  exact ⟨outcome, rfl, rfl⟩

/-- What is stored apart from the entries of chains does not count as a block. -/
theorem blockCount_congr {before after : Database} (same : SameChain before after) :
    after.blockCount = before.blockCount := by
  have keys : after.blockKeys = before.blockKeys := by
    ext key
    rw [Database.mem_blockKeys, Database.mem_blockKeys]
    refine and_congr_left fun starts => ?_
    rw [same key (Key.ofChain_of_blockStart starts)]
  rw [← Database.card_blockKeys, keys, Database.card_blockKeys]

/-! ## Accounts -/

/-- The accounts of a store since an opening: its settings and faults are as they were, each
counter that could be read has grown as given, and the blocks are accounted for. -/
structure Accounts (opening : Shelf) (grown : String → Nat) (added removed : Nat) (shelf : Shelf) :
    Prop where
  continues : Continues opening shelf
  counters : ∀ name value, Reads opening.session.database name value →
    Fits value (grown name) → Reads shelf.session.database name (value + grown name)
  blocks : shelf.session.database.blockCount + removed =
    opening.session.database.blockCount + added

/-- Accesses of counters do not fail. -/
def Answers (fault : Nat → Access → Option String) : Prop :=
  ∀ number request, Access.OfCounter request → fault number request = none

namespace Accounts

variable {opening : Shelf} {grown : String → Nat} {added removed : Nat}

/-- At the opening nothing has been accounted for. -/
theorem opened (shelf : Shelf) : Accounts shelf (fun _ => 0) 0 0 shelf where
  continues := ⟨rfl, rfl⟩
  counters name value reads _ := by
    rw [Int.natCast_zero, Int.add_zero]
    exact reads
  blocks := rfl

/-- An update of a counter adds to it. -/
theorem count (accounts : Accounts opening grown added removed (scene.shelf world))
    (answers : Answers opening.session.fault) (name : String) (growth : Nat) :
    Accounts opening (fun counter => grown counter + share name counter growth) added removed
      (scene.shelf (scene.ledger.count name (Int64.ofNat growth) world).2) := by
  have answering : Answers (scene.shelf world).session.fault :=
    accounts.continues.fault ▸ answers
  obtain ⟨same, continues⟩ := scene.ends_storing world
    (fun _ => Counter.update name (Int64.ofNat growth)) (Counter.sameChain_update name _)
  refine ⟨accounts.continues.trans continues, ?_, ?_⟩
  · intro counter value reads fits
    obtain ⟨small, bounded⟩ := fits
    rw [Int.natCast_add] at bounded
    have earlier := accounts.counters counter value reads ⟨by omega, by omega⟩
    have updated := (scene.ends_storing world (fun _ => Counter.update name (Int64.ofNat growth))
      (Counter.reads_update answering earlier ⟨by omega, by omega⟩)).1
    rw [Int.natCast_add, ← Int.add_assoc]
    exact updated
  · exact (congrArg (· + removed) (blockCount_congr same)).trans accounts.blocks

section

variable (act : BlockStore → Storing Unit) {Outcome : Except SyncError Unit → Database → Prop}

/-- A computation that is carried out on the blocks, and touches no counter. -/
theorem granted (accounts : Accounts opening grown added removed (scene.shelf world))
    (ends : Store.Ends (scene.shelf world).session.fault (act (scene.shelf world).store)
      (scene.shelf world).session.database Outcome)
    (granted : (Ledger.onPart scene.books scene.withBooks (Books.storing act) world).1 = .ok ())
    (more fewer : Nat)
    (counter : ∀ after, Outcome (.ok ()) after → ∀ name,
      after.get? (Key.counter name).bytes =
        (scene.shelf world).session.database.get? (Key.counter name).bytes)
    (blocks : ∀ after, Outcome (.ok ()) after →
      after.blockCount + fewer = (scene.shelf world).session.database.blockCount + more) :
    Accounts opening grown (added + more) (removed + fewer)
      (scene.shelf (Ledger.onPart scene.books scene.withBooks (Books.storing act) world).2) := by
  obtain ⟨outcome, continues⟩ := scene.ends_storing world act ends
  rw [granted] at outcome
  refine ⟨accounts.continues.trans continues, ?_, ?_⟩
  · intro name value reads fits
    exact (accounts.counters name value reads fits).congr (counter _ outcome name)
  · have counted := blocks _ outcome
    have earlier := accounts.blocks
    omega

/-- A computation that fails and leaves the database as it was. -/
theorem refused (accounts : Accounts opening grown added removed (scene.shelf world))
    (ends : Store.Ends (scene.shelf world).session.fault (act (scene.shelf world).store)
      (scene.shelf world).session.database Outcome) {error : SyncError}
    (refused : (Ledger.onPart scene.books scene.withBooks (Books.storing act) world).1 =
      .error error)
    (untouched : ∀ after, Outcome (.error error) after →
      after = (scene.shelf world).session.database) :
    Accounts opening grown added removed
      (scene.shelf (Ledger.onPart scene.books scene.withBooks (Books.storing act) world).2) := by
  obtain ⟨outcome, continues⟩ := scene.ends_storing world act ends
  rw [refused] at outcome
  have same := untouched _ outcome
  refine ⟨accounts.continues.trans continues, ?_, ?_⟩
  · rw [same]
    exact accounts.counters
  · rw [same]
    exact accounts.blocks

end

/-- An addition that is granted adds a block. -/
theorem add (accounts : Accounts opening grown added removed (scene.shelf world))
    (modest : opening.store.Modest) {block : Block}
    (granted : (scene.ledger.add block world).1 = .ok ()) :
    Accounts opening grown (added + 1) removed
      (scene.shelf (scene.ledger.add block world).2) := by
  have modestHere : (scene.shelf world).store.Modest := accounts.continues.store ▸ modest
  exact accounts.granted (fun store => store.add block) (BlockStore.ends_add _ block)
    granted 1 0 (fun _ outcome => outcome.counter modestHere)
    fun _ outcome => outcome.blockCount modestHere

/-- A removal that is granted removes a block. -/
theorem remove (accounts : Accounts opening grown added removed (scene.shelf world))
    (modest : opening.store.Modest) {id : BlockId}
    (granted : (scene.ledger.remove id world).1 = .ok ()) :
    Accounts opening grown added (removed + 1)
      (scene.shelf (scene.ledger.remove id world).2) := by
  have modestHere : (scene.shelf world).store.Modest := accounts.continues.store ▸ modest
  exact accounts.granted (fun store => store.remove id) (BlockStore.ends_remove _ id)
    granted 0 1 (fun _ outcome => outcome.counter modestHere)
    fun _ outcome => outcome.blockCount modestHere

end Accounts

/-! ## Calls -/

/-- The accounts of a store of which calls were carried out. -/
def Accounted (scene : Scene σ) (opening : Shelf) (made : List Call) (world : σ) : Prop :=
  Accounts opening (fun name => growth name made) (made.filterMap Call.added?).length
    (made.filterMap Call.removed?).length (scene.shelf world)

section

variable {opening : Shelf} {made : List Call} (journal : scene.Journal)

theorem growth_append (name : String) (made : List Call) (call : Call) :
    growth name (made ++ [call]) = growth name made + call.growth name := by
  simp [growth]

/-- An addition that is carried out is accounted for, whatever becomes of the event log. -/
theorem Accounted.added (accounted : Accounted scene opening made world)
    (modest : opening.store.Modest) (answers : Answers opening.session.fault) {block : Block}
    (granted : (Follower.added (scene.journaled journal) block world).1 = .ok ()) :
    Accounted scene opening (made ++ [.added block])
      (Follower.added (scene.journaled journal) block world).2 := by
  have stored := Follower.add_of_added_ok granted
  have carried := Follower.added_of_ok stored
  have logged : Accounts opening (fun name => growth name made)
      ((made.filterMap Call.added?).length + 1) (made.filterMap Call.removed?).length
      (scene.shelf (journal.addition block (scene.ledger.add block world).2).2) := by
    rw [journal.shelf_addition]
    exact accounted.add modest stored
  have counted := ((logged.count answers Counter.blocks 1).count answers
    Counter.transactions block.transactions.length).count answers Counter.operations
      block.operationCount
  have grown : (fun name => growth name (made ++ [.added block])) = fun name =>
      growth name made + share Counter.blocks name 1 +
        share Counter.transactions name block.transactions.length +
        share Counter.operations name block.operationCount := by
    funext name
    simp only [growth_append, Call.growth, Nat.add_assoc]
  rw [carried, Accounted, grown, List.filterMap_append, List.filterMap_append,
    List.length_append, List.length_append]
  exact counted

/-- So is a removal. -/
theorem Accounted.removed (accounted : Accounted scene opening made world)
    (modest : opening.store.Modest) (answers : Answers opening.session.fault) {id : BlockId}
    (granted : (Follower.removed (scene.journaled journal) id world).1 = .ok ()) :
    Accounted scene opening (made ++ [.removed id])
      (Follower.removed (scene.journaled journal) id world).2 := by
  have stored := Follower.remove_of_removed_ok granted
  have carried := Follower.removed_of_ok stored
  have logged : Accounts opening (fun name => growth name made)
      (made.filterMap Call.added?).length ((made.filterMap Call.removed?).length + 1)
      (scene.shelf (journal.removal id (scene.ledger.remove id world).2).2) := by
    rw [journal.shelf_removal]
    exact accounted.remove modest stored
  have counted := logged.count answers Counter.orphans 1
  have grown : (fun name => growth name (made ++ [.removed id])) = fun name =>
      growth name made + share Counter.orphans name 1 := by
    funext name
    simp only [growth_append, Call.growth]
  rw [carried, Accounted, grown, List.filterMap_append, List.filterMap_append,
    List.length_append, List.length_append]
  exact counted

/-- A call that fails changes nothing. -/
theorem Accounted.refused (accounted : Accounted scene opening made world) {call : Call}
    {error : SyncError}
    (refused : ((Follower.handler (scene.journaled journal)).carry call world).1 =
      .error error) :
    Accounted scene opening made
      ((Follower.handler (scene.journaled journal)).carry call world).2 := by
  cases call with
  | added block =>
      change (Follower.added (scene.journaled journal) block world).1 = _ at refused
      change Accounted scene opening made (Follower.added (scene.journaled journal) block world).2
      obtain ⟨cause, stored, same⟩ := Follower.add_of_added_error refused
      rw [same]
      exact Accounts.refused (fun store => store.add block) accounted
        (BlockStore.ends_add _ block) stored fun _ untouched => untouched
  | removed id =>
      change (Follower.removed (scene.journaled journal) id world).1 = _ at refused
      change Accounted scene opening made (Follower.removed (scene.journaled journal) id world).2
      obtain ⟨cause, stored, same⟩ := Follower.remove_of_removed_error refused
      rw [same]
      exact Accounts.refused (fun store => store.remove id) accounted
        (BlockStore.ends_remove _ id) stored fun _ untouched => untouched

end

/-- Calls keep the accounts, whether they are carried out or fail. -/
theorem keeps_accounts {opening : Shelf} (journal : scene.Journal)
    (modest : opening.store.Modest) (answers : Answers opening.session.fault) :
    (Follower.handler (scene.journaled journal)).Keeps scene.around (Accounted scene opening) where
  silent made := scene.keeps_shelf fun shelf => Accounts opening (fun name => growth name made)
    (made.filterMap Call.added?).length (made.filterMap Call.removed?).length shelf
  granted made call world accounted granted := by
    cases call with
    | added block => exact accounted.added journal modest answers granted
    | removed id => exact accounted.removed journal modest answers granted
  refused made call world error accounted refused := accounted.refused journal refused

/-! ## Preparation -/

/-- A shelf made ready for a run: it has other workers, and the counters and the faults are as
they were. -/
structure Readied (workers : List Worker) (before after : Shelf) : Prop where
  workers : after.store.workers = workers
  fault : after.session.fault = before.session.fault
  counters : ∀ name, after.session.database.get? (Key.counter name).bytes =
    before.session.database.get? (Key.counter name).bytes

namespace Readied

variable {workers : List Worker} {before : Shelf}

/-- A computation that leaves the counters alone leaves a shelf ready. -/
theorem storing (readied : Readied workers before (scene.shelf world))
    (act : BlockStore → Storing α)
    (ends : Store.Ends (scene.shelf world).session.fault (act (scene.shelf world).store)
      (scene.shelf world).session.database fun _ after => ∀ name,
        after.get? (Key.counter name).bytes =
          (scene.shelf world).session.database.get? (Key.counter name).bytes) :
    Readied workers before
      (scene.shelf (Ledger.onPart scene.books scene.withBooks (Books.storing act) world).2) := by
  obtain ⟨same, continues⟩ := scene.ends_storing world act ends
  refine ⟨?_, continues.fault.trans readied.fault, ?_⟩
  · rw [continues.store]
    exact readied.workers
  · exact fun name => (same name).trans (readied.counters name)

/-- The blocks discarded by a new start are counted nowhere. -/
theorem setStart (readied : Readied workers before (scene.shelf world))
    (modest : ∀ worker ∈ workers, worker.Modest) (start : Int64) :
    Readied workers before (scene.shelf (scene.ledger.setStart start world).2) := by
  have modestHere : (scene.shelf world).store.Modest := by
    unfold BlockStore.Modest
    rw [readied.workers]
    exact modest
  apply readied.storing fun store => store.setStart start
  exact BlockStore.ends_setStart (fun id between after kept removed name =>
    (removed.counter modestHere name).trans (kept name)) start fun _ => rfl

/-- Reading the head leaves a shelf ready. -/
theorem head (readied : Readied workers before (scene.shelf world)) :
    Readied workers before (scene.shelf (scene.ledger.head world).2) := by
  apply readied.storing fun _ => BlockStore.head
  apply BlockStore.ends_head.weaken
  rintro result _ rfl
  exact fun _ => rfl

/-- So does reading the newest blocks. -/
theorem recent (readied : Readied workers before (scene.shelf world)) :
    Readied workers before (scene.shelf (scene.ledger.recent world).2) := by
  apply readied.storing fun store => store.recent
  apply (BlockStore.ends_recent _).weaken
  rintro result _ rfl
  exact fun _ => rfl

end Readied

/-- A follower that is not refused at once leaves its shelf ready. -/
theorem readied_prepare (journal : scene.Journal) {follower : Follower}
    (modest : ∀ worker ∈ follower.workers, worker.Modest) {start : Int64}
    (valid : ¬start < -1) (world : σ) :
    Readied follower.workers (scene.shelf world)
      (scene.shelf (follower.prepare (scene.journaled journal) start world).2) := by
  have begun : Readied follower.workers (scene.shelf world)
      (scene.shelf (scene.ledger.prepare follower.workers world)) := by
    rw [Scene.shelf_prepare]
    exact ⟨rfl, rfl, fun _ => rfl⟩
  exact Follower.kept_prepare
    (fun after => Readied follower.workers (scene.shelf world) (scene.shelf after)) valid begun
    (fun _ readied => readied.setStart modest start) (fun _ readied => readied.head)
    fun _ readied => readied.recent

/-- To prepare the books of a follower leaves the counters as they were. -/
theorem counters_prepare (journal : scene.Journal) {follower : Follower}
    (modest : ∀ worker ∈ follower.workers, worker.Modest) (start : Int64) (world : σ)
    (name : String) :
    (scene.shelf (follower.prepare (scene.journaled journal) start world).2).session.database.get?
        (Key.counter name).bytes =
      (scene.shelf world).session.database.get? (Key.counter name).bytes := by
  by_cases valid : start < -1
  · rw [Follower.prepare_of_invalid valid]
  · exact (readied_prepare journal modest valid world).counters name

/-! ## Sums -/

section

variable (calls : List Call)

theorem growth_cons (name : String) (call : Call) :
    growth name (call :: calls) = call.growth name + growth name calls :=
  List.sum_cons

theorem growth_blocks :
    growth Counter.blocks calls = (calls.filterMap Call.added?).length := by
  induction calls with
  | nil => rfl
  | cons call calls ih =>
      rw [growth_cons, ih]
      cases call with
      | added block => exact Nat.add_comm 1 _
      | removed id => exact Nat.zero_add _

theorem growth_transactions :
    growth Counter.transactions calls =
      ((calls.filterMap Call.added?).map (·.transactions.length)).sum := by
  induction calls with
  | nil => rfl
  | cons call calls ih =>
      rw [growth_cons, ih]
      cases call with
      | added block => exact congrArg (· + _) (Nat.zero_add block.transactions.length)
      | removed id => exact Nat.zero_add _

theorem growth_operations :
    growth Counter.operations calls =
      ((calls.filterMap Call.added?).map (·.operationCount)).sum := by
  induction calls with
  | nil => rfl
  | cons call calls ih =>
      rw [growth_cons, ih]
      cases call with
      | added block => exact congrArg (· + _) (Nat.zero_add block.operationCount)
      | removed id => exact Nat.zero_add _

theorem growth_orphans :
    growth Counter.orphans calls = (calls.filterMap Call.removed?).length := by
  induction calls with
  | nil => rfl
  | cons call calls ih =>
      rw [growth_cons, ih]
      cases call with
      | added block => exact Nat.zero_add _
      | removed id => exact Nat.add_comm 1 _

end

/-! ## Whole runs -/

/-- The accounts of a whole run: what the calls that were carried out come to. -/
theorem accounts_sync (journal : scene.Journal) {follower : Follower}
    (modest : ∀ worker ∈ follower.workers, worker.Modest)
    (answers : Answers (scene.shelf world).session.fault) (start final : Int64) (fuel : Nat) :
    Accounted scene (scene.shelf (follower.prepare (scene.journaled journal) start world).2)
      (follower.decisions scene.around (scene.journaled journal) start final fuel world)
      (follower.sync scene.around (scene.journaled journal) start final fuel world).2 := by
  by_cases valid : start < -1
  · simp only [Follower.decisions, Follower.trail, Follower.sync,
      Follower.prepare_of_invalid valid]
    exact Accounts.opened _
  · have readied := readied_prepare journal modest valid world
    apply Handler.Keeps.sync
    · apply keeps_accounts journal
      · unfold BlockStore.Modest
        rw [readied.workers]
        exact modest
      · rw [readied.fault]
        exact answers
    · exact Accounts.opened _

/-- Whatever becomes of a run, the counters have grown by exactly what was added and taken back,
and the blocks stored are those that were left when the books were prepared, with the ones added
and without the ones taken back. -/
theorem counters_account (journal : scene.Journal) {follower : Follower}
    (modest : ∀ worker ∈ follower.workers, worker.Modest)
    (answers : Answers (scene.shelf world).session.fault) (start final : Int64) (fuel : Nat)
    {blocks transactions operations orphans : Int} {added : List Block} {removed : List BlockId}
    {opening prepared closing : Database}
    (opened : (scene.shelf world).session.database = opening)
    (ready : (scene.shelf (follower.prepare (scene.journaled journal) start
      world).2).session.database = prepared)
    (closed : (scene.shelf (follower.sync scene.around (scene.journaled journal) start final fuel
      world).2).session.database = closing)
    (additions : (follower.decisions scene.around (scene.journaled journal) start final fuel
      world).filterMap Call.added? = added)
    (removals : (follower.decisions scene.around (scene.journaled journal) start final fuel
      world).filterMap Call.removed? = removed)
    (readBlocks : Reads opening Counter.blocks blocks) (fitBlocks : Fits blocks added.length)
    (readTransactions : Reads opening Counter.transactions transactions)
    (fitTransactions : Fits transactions (added.map (·.transactions.length)).sum)
    (readOperations : Reads opening Counter.operations operations)
    (fitOperations : Fits operations (added.map (·.operationCount)).sum)
    (readOrphans : Reads opening Counter.orphans orphans) (fitOrphans : Fits orphans removed.length) :
    Reads closing Counter.blocks (blocks + added.length) ∧
      Reads closing Counter.transactions
        (transactions + (added.map (·.transactions.length)).sum) ∧
      Reads closing Counter.operations (operations + (added.map (·.operationCount)).sum) ∧
      Reads closing Counter.orphans (orphans + removed.length) ∧
      closing.blockCount + removed.length = prepared.blockCount + added.length := by
  subst opened ready closed additions removals
  have accounted := accounts_sync journal modest answers start final fuel
  have reads {name : String} {value : Int}
      (read : Reads (scene.shelf world).session.database name value) :=
    read.congr (counters_prepare journal modest start world name)
  rw [← growth_blocks] at fitBlocks ⊢
  rw [← growth_transactions] at fitTransactions ⊢
  rw [← growth_operations] at fitOperations ⊢
  rw [← growth_orphans] at fitOrphans ⊢
  have blocksKept := accounted.blocks
  rw [← growth_blocks, ← growth_orphans] at blocksKept
  exact ⟨accounted.counters _ _ (reads readBlocks) fitBlocks,
    accounted.counters _ _ (reads readTransactions) fitTransactions,
    accounted.counters _ _ (reads readOperations) fitOperations,
    accounted.counters _ _ (reads readOrphans) fitOrphans, blocksKept⟩

theorem modest_indexingFollower : ∀ worker ∈ indexingFollower.workers, worker.Modest := by
  intro worker member
  rw [List.mem_singleton.1 member]
  exact Worker.modest_transactionIndex

/-- A genesis block beside the first block. -/
def rivalGenesis : Block := ⟨⟨0, "z"⟩, ⟨0, "z"⟩, 0, [], none⟩

/-- A child of it with one transaction of two operations. -/
def busyBlock : Block :=
  ⟨⟨1, "d"⟩, ⟨0, "z"⟩, 0, [⟨⟨"t"⟩, [⟨⟨0, none⟩, "debit", none, none, none, none⟩,
    ⟨⟨1, none⟩, "credit", none, none, none, none⟩], none⟩], none⟩

/-- A node with the chain of these two blocks. -/
def rivalScene : Scene Books :=
  .ofChain ⟨busyBlock.id, 0, rivalGenesis.id, none, []⟩ (atIndex? · [busyBlock, rivalGenesis])

/-- An event log to which nothing can be appended. -/
def fullJournal : rivalScene.Journal where
  addition _ books := (.error (.storage (.database "full")), books)
  removal _ books := (.error (.storage (.database "full")), books)
  shelf_addition _ _ := rfl
  shelf_removal _ _ := rfl

/-- From index 1 on, the stale block is discarded, the first block is taken back and the two
blocks of the rival chain are added, although nothing can be logged. -/
theorem counters_account_rivalScene :
    let prepared := (rivalScene.shelf (indexingFollower.prepare (rivalScene.journaled fullJournal)
      1 (Scene.booksOf staleShelf)).2).session.database
    let closing := (rivalScene.shelf (indexingFollower.sync rivalScene.around
      (rivalScene.journaled fullJournal) 1 1 6 (Scene.booksOf staleShelf)).2).session.database
    Reads closing Counter.blocks 2 ∧ Reads closing Counter.transactions 1 ∧
      Reads closing Counter.operations 2 ∧ Reads closing Counter.orphans 1 ∧
      prepared.blockCount = 1 ∧ closing.blockCount + 1 = prepared.blockCount + 2 := by
  intro prepared closing
  let decisions := indexingFollower.decisions rivalScene.around
    (rivalScene.journaled fullJournal) 1 1 6 (Scene.booksOf staleShelf)
  have added : (decisions.filterMap Call.added?).length = 2 := by decide +kernel
  have transactions :
      ((decisions.filterMap Call.added?).map (·.transactions.length)).sum = 1 := by
    decide +kernel
  have operations : ((decisions.filterMap Call.added?).map (·.operationCount)).sum = 2 := by
    decide +kernel
  have removed : (decisions.filterMap Call.removed?).length = 1 := by decide +kernel
  have answers : Answers (rivalScene.shelf (Scene.booksOf staleShelf)).session.fault :=
    fun _ _ _ => rfl
  have zero (name : String)
      (absent : staleShelf.session.database.get? (Key.counter name).bytes = none) :
      Reads staleShelf.session.database name 0 := by
    refine ⟨0, ?_, rfl⟩
    unfold Counter.value?
    rw [absent]
  have fits {growth small : Nat} (same : growth = small) (bounded : small < 3) :
      Fits 0 growth := by
    subst same
    exact ⟨by omega, by omega⟩
  have account := counters_account fullJournal modest_indexingFollower answers 1 1 6 rfl rfl rfl rfl rfl
    (zero _ rfl) (fits added (by decide)) (zero _ rfl) (fits transactions (by decide))
    (zero _ rfl) (fits operations (by decide)) (zero _ rfl) (fits removed (by decide))
  rw [added, transactions, operations, removed] at account
  obtain ⟨readBlocks, readTransactions, readOperations, readOrphans, counted⟩ := account
  exact ⟨readBlocks, readTransactions, readOperations, readOrphans, by decide +kernel, counted⟩

end ChainFollower.Sync
