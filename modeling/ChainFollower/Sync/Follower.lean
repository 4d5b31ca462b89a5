import ChainFollower.Sync.Engine
import ChainFollower.Sync.Ledger

/-!
# Following a chain

A follower joins the engine to a ledger: it goes on from whatever the ledger
holds, and records every decision of the engine in the block store, the event log
and the counters.  Only the block store can stop a run; the log and the counters
are kept as well as possible.
-/

namespace ChainFollower.Sync

open Store (Worker)

/-- How to follow a chain. -/
structure Follower where
  workers : List Worker
  concurrency : UInt64

namespace Follower

/-- Sets the concurrency, at least one. -/
def withConcurrency (follower : Follower) (concurrency : UInt64) : Follower :=
  { follower with concurrency := max concurrency 1 }

/-- Puts a failure in the context of what was attempted. -/
def attempting (attempt : String) : Except SyncError α → Except SyncError α
  | .ok value => .ok value
  | .error error => .error (.context attempt error)

/-! ## Recording decisions -/

/-- Records an added block.  Failures after the block is stored are passed over. -/
def added (ledger : Ledger σ) (block : Block) (world : σ) : Except SyncError Unit × σ :=
  let (result, world) := ledger.add block world
  match attempting ("unable to add block to storage " ++ block.id.display) result with
  | .error error => (.error error, world)
  | .ok () =>
      let world := (ledger.logAddition block world).2
      let world := (ledger.count Store.Counter.blocks 1 world).2
      let world := (ledger.count Store.Counter.transactions
        (Int64.ofNat block.transactions.length) world).2
      let world := (ledger.count Store.Counter.operations
        (Int64.ofNat block.operationCount) world).2
      (.ok (), world)

/-- Records a removed block.  Failures after the block is removed are passed
over. -/
def removed (ledger : Ledger σ) (id : BlockId) (world : σ) : Except SyncError Unit × σ :=
  let (result, world) := ledger.remove id world
  match attempting ("unable to remove block from storage " ++ id.display) result with
  | .error error => (.error error, world)
  | .ok () =>
      let world := (ledger.logRemoval id world).2
      let world := (ledger.count Store.Counter.orphans 1 world).2
      (.ok (), world)

/-- The handler that records decisions in a ledger. -/
def handler (ledger : Ledger σ) : Handler σ := ⟨added ledger, removed ledger⟩

/-! ## Runs -/

/-- Where a run starts.  A start other than -1 first removes the blocks at and
above it; -1 goes on after the head, or at the genesis block when there is no head
to be had. -/
def startIndex (ledger : Ledger σ) (start : Int64) (world : σ) : Except SyncError Int64 × σ :=
  if start ≠ -1 then
    let (result, world) := ledger.setStart start world
    (attempting "unable to set new start index" (result.map fun _ => start), world)
  else
    match ledger.head world with
    | (.ok head, world) => (.ok (head.index + 1), world)
    | (.error _, world) => (.ok start, world)

/-- The engine of a run that starts from the given newest blocks. -/
def engine (follower : Follower) (recent : List Block) : Engine :=
  (Engine.standard.withConcurrency follower.concurrency).withPastBlocks recent

/-- A run as far as the engine: the ledger is prepared, the start settled and the
newest blocks read.  A start below -1 is refused. -/
def prepare (follower : Follower) (ledger : Ledger σ) (start : Int64) (world : σ) :
    Except SyncError (Int64 × Engine) × σ :=
  if start < -1 then
    (.error (.config ("invalid start index " ++ toString start)), world)
  else
    let world := ledger.prepare follower.workers world
    match startIndex ledger start world with
    | (.error error, world) => (.error error, world)
    | (.ok start, world) =>
        match ledger.recent world with
        | (.error error, world) => (.error error, world)
        | (.ok recent, world) => (.ok (start, follower.engine recent), world)

/-- Follows the chain from `start` through `final`.  A start of -1 goes on after
the stored head; a final index of -1 follows until cancelled.  There is no result
when the fuel runs out first. -/
def sync (follower : Follower) (around : Surroundings σ) (ledger : Ledger σ) (start final : Int64)
    (fuel : Nat) (world : σ) : Option (Except SyncError Unit) × σ :=
  match follower.prepare ledger start world with
  | (.error error, world) => (some (.error error), world)
  | (.ok (start, engine), world) =>
      let (result, machine) := engine.sync around (handler ledger) start final fuel world
      (result, machine.world)

end Follower

end ChainFollower.Sync
