import ChainFollower.Block.Basic
import ChainFollower.Duration
import ChainFollower.Error

/-!
# The sync engine

The engine walks the chain index by index and hands blocks to a handler strictly
in order.  A block whose parent is not the last block handed over makes it take
that last block back, after which it continues one index lower.

It runs in rounds: a status request, which bounds the round, and then the blocks
of the round one after another.  `Machine.step` is one request with what follows
from it; `Machine.run` repeats it.
-/

namespace ChainFollower.Sync

/-- The remote node, the cancellation token and the passage of time, over a
state. -/
structure Surroundings (σ : Type) where
  cancelled : σ → Bool
  status : σ → Awaited NetworkStatus × σ
  /-- The block at an index; none where the chain deliberately omits one.  The
  requests for as many blocks after it may go out before it is answered. -/
  block : Int64 → (ahead : Nat) → σ → Awaited (Option Block) × σ
  /-- Waits for a time, or until cancelled. -/
  rest : Duration → σ → σ

/-- Who carries out the engine's decisions, over a state. -/
structure Handler (σ : Type) where
  added : Block → σ → Except SyncError Unit × σ
  removed : BlockId → σ → Except SyncError Unit × σ

/-- The engine: its settings, and how far it has come. -/
structure Engine where
  /-- As many requests for blocks may be in flight at a time.  Sixteen times this
  many blocks make up a round at most. -/
  concurrency : UInt64
  /-- The wait before the next round when there is nothing to do. -/
  pause : Duration
  /-- The greatest length of the window. -/
  windowLimit : Nat
  /-- The last blocks handed over and not taken back, newest first. -/
  window : List BlockId
  /-- The next index to ask for. -/
  next : Int64

namespace Engine

/-- The concurrency unless set otherwise. -/
def defaultConcurrency : UInt64 := 8

/-- The window's greatest length unless set otherwise. -/
def defaultWindowLimit : Nat := 20

/-- The wait between idle rounds unless set otherwise. -/
def defaultPause : Duration := .ofSeconds 2

/-- An engine with standard settings that has done nothing. -/
def standard : Engine :=
  ⟨defaultConcurrency, defaultPause, defaultWindowLimit, [], -1⟩

/-- Sets the concurrency, at least one. -/
def withConcurrency (engine : Engine) (concurrency : UInt64) : Engine :=
  { engine with concurrency := max concurrency 1 }

/-- Sets the wait between idle rounds. -/
def withPause (engine : Engine) (pause : Duration) : Engine :=
  { engine with pause }

/-- Sets the greatest length of the window, at least one. -/
def withWindowLimit (engine : Engine) (limit : Nat) : Engine :=
  { engine with
    windowLimit := max limit 1
    window := engine.window.take (max limit 1) }

/-- Starts from blocks handed over earlier, given oldest first. -/
def withPastBlocks (engine : Engine) (blocks : List Block) : Engine :=
  { engine with window := (blocks.map Block.id).reverse.take engine.windowLimit }

/-- The last index of a round in which blocks up to `last` may be asked for.  The
size of a round is computed in 64-bit words. -/
def roundEnd (engine : Engine) (last : Int64) : Int64 :=
  min last (engine.next + (engine.concurrency * 16).toInt64 - 1)

/-- The number of blocks from the next index through the end of the round. -/
def roundSize (engine : Engine) (last : Int64) : Nat :=
  ((engine.roundEnd last).toInt - engine.next.toInt + 1).toNat

/-- The last index that may be asked for: the tip of the chain, or `final` where
that is lower and not -1. -/
def reachable (tip final : Int64) : Int64 :=
  if final ≠ -1 ∧ final < tip then final else tip

/-- Whether everything up to `final` has been handed over. -/
def finished (engine : Engine) (final : Int64) : Bool :=
  final ≠ -1 && final < engine.next

/-- The engine after handing over a block. -/
def push (engine : Engine) (id : BlockId) : Engine :=
  { engine with
    next := id.index + 1
    window := (id :: engine.window).take engine.windowLimit }

/-- The engine after taking back its last block. -/
def pop (engine : Engine) (last : BlockId) : Engine :=
  { engine with next := last.index, window := engine.window.tail }

/-- The engine after an index without a block. -/
def skip (engine : Engine) : Engine :=
  { engine with next := engine.next + 1 }

end Engine

/-- The engine at work. -/
structure Machine (σ : Type) where
  engine : Engine
  /-- How many blocks of the current round are still to be asked for. -/
  remaining : Nat
  world : σ

/-- The outcome of one step. -/
inductive Progress (σ : Type) where
  | running (machine : Machine σ)
  | ended (result : Except SyncError Unit) (machine : Machine σ)

namespace Machine

variable {σ : Type}

/-- The machine with another state around the engine. -/
def moved (machine : Machine σ) (world : σ) : Machine σ :=
  { machine with world }

/-- The machine between two rounds. -/
def betweenRounds (machine : Machine σ) : Machine σ :=
  { machine with remaining := 0 }

/-- What the engine does when a status request leaves nothing to ask for: it ends
when it has finished and waits when it has caught up. -/
def idle (around : Surroundings σ) (final : Int64) (machine : Machine σ) : Progress σ :=
  if around.cancelled machine.world then .running machine
  else if machine.engine.finished final then .ended (.ok ()) machine
  else .running (machine.moved (around.rest machine.engine.pause machine.world))

/-- Begins a round: asks for the status and bounds the round by it. -/
def beginRound (around : Surroundings σ) (final : Int64) (machine : Machine σ) : Progress σ :=
  if machine.engine.next < 0 then
    .ended (.error (.syncer "start index was never resolved")) machine
  else
    let (answer, world) := around.status machine.world
    let machine := machine.moved world
    match answer with
    | none => machine.idle around final
    | some (.error error) => .ended (.error error) machine
    | some (.ok status) =>
        let last := Engine.reachable status.current.index final
        if last < machine.engine.next then
          machine.idle around final
        else
          .running { machine with remaining := machine.engine.roundSize last }

/-- Hands a block over. -/
def handOver (handler : Handler σ) (left : Nat) (block : Block) (machine : Machine σ) :
    Progress σ :=
  let (result, world) := handler.added block machine.world
  let machine := machine.moved world
  match result with
  | .error error => .ended (.error error) machine
  | .ok () =>
      .running { machine with engine := machine.engine.push block.id, remaining := left }

/-- Takes the last block back, which ends the round: the blocks still to be asked
for would build on it. -/
def takeBack (handler : Handler σ) (last : BlockId) (machine : Machine σ) : Progress σ :=
  let (result, world) := handler.removed last machine.world
  let machine := machine.moved world
  match result with
  | .error error => .ended (.error error) machine
  | .ok () => .running { machine with engine := machine.engine.pop last, remaining := 0 }

/-- Deals with a block of the right index: it is handed over if it continues the
window, and else the last block of the window is taken back. -/
def link (handler : Handler σ) (left : Nat) (block : Block) (machine : Machine σ) :
    Progress σ :=
  match machine.engine.window with
  | [] => machine.handOver handler left block
  | last :: _ =>
      if block.parent = last then machine.handOver handler left block
      else machine.takeBack handler last

/-- Deals with the answer for the next index; an omitted block is passed by. -/
def receive (handler : Handler σ) (left : Nat) (machine : Machine σ) :
    Option Block → Progress σ
  | none => .running { machine with engine := machine.engine.skip, remaining := left }
  | some block =>
      if block.id.index = machine.engine.next then machine.link handler left block
      else
        .ended (.error (.syncer ("got block " ++ block.id.display ++ " instead of index " ++
          toString machine.engine.next))) machine

/-- How many blocks of the round may be asked for ahead of the next one. -/
def ahead (machine : Machine σ) : Nat :=
  min (machine.remaining - 1) (machine.engine.concurrency.toNat - 1)

/-- What is answered to the request for the next block of the round. -/
def ask (around : Surroundings σ) (machine : Machine σ) : Awaited (Option Block) × σ :=
  around.block machine.engine.next machine.ahead machine.world

/-- Takes the next block of the round. -/
def fetch (around : Surroundings σ) (handler : Handler σ) (left : Nat) (machine : Machine σ) :
    Progress σ :=
  let (answer, world) := machine.ask around
  let machine := machine.moved world
  match answer with
  | none => .running machine.betweenRounds
  | some (.error error) =>
      .ended (.error (.context
        ("unable to fetch block " ++ toString machine.engine.next) error)) machine
  | some (.ok found) => machine.receive handler left found

/-- One step: nothing more once cancelled, a new round when the last one is over,
the next block otherwise. -/
def step (around : Surroundings σ) (handler : Handler σ) (final : Int64) (machine : Machine σ) :
    Progress σ :=
  if around.cancelled machine.world then .ended (.ok ()) machine.betweenRounds
  else
    match machine.remaining with
    | 0 => machine.beginRound around final
    | left + 1 => machine.fetch around handler left

/-- Repeats steps until the engine ends, `fuel` times at most.  There is no result
when the fuel runs out first. -/
def run (around : Surroundings σ) (handler : Handler σ) (final : Int64) :
    (fuel : Nat) → Machine σ → Option (Except SyncError Unit) × Machine σ
  | 0, machine => (none, machine)
  | fuel + 1, machine =>
      match machine.step around handler final with
      | .running next => next.run around handler final fuel
      | .ended result last => (some result, last)

/-- The machine about to begin at an index. -/
def startingAt (machine : Machine σ) (index : Int64) : Machine σ :=
  { machine with engine := { machine.engine with next := index }, remaining := 0 }

/-- Settles where to begin: at `start`, or at the genesis block of the remote node
when `start` is -1. -/
def settle (around : Surroundings σ) (start : Int64) (machine : Machine σ) : Progress σ :=
  if start ≠ -1 then .running (machine.startingAt start)
  else if around.cancelled machine.world then .ended (.ok ()) machine
  else
    let (answer, world) := around.status machine.world
    let machine := machine.moved world
    match answer with
    | none => .ended (.ok ()) machine
    | some (.error error) => .ended (.error error) machine
    | some (.ok status) => .running (machine.startingAt status.genesis.index)

end Machine

/-- Follows the chain from `start` through `final`, either of which may be -1: for
the genesis block, and for no end.  It ends without error when `final` is reached
or when cancelled. -/
def Engine.sync {σ : Type} (around : Surroundings σ) (handler : Handler σ) (start final : Int64)
    (fuel : Nat) (engine : Engine) (world : σ) :
    Option (Except SyncError Unit) × Machine σ :=
  match Machine.settle around start ⟨engine, 0, world⟩ with
  | .running machine => machine.run around handler final fuel
  | .ended result machine => (some result, machine)

end ChainFollower.Sync
