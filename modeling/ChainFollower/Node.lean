import ChainFollower.Remote.Fetcher
import ChainFollower.Sync.Follower

/-!
# Nodes

A node follows the chain of its configuration with a fetcher, a database and an
event log, while watchdogs look out for the end conditions.
-/

namespace ChainFollower.Node

open Remote (Fetcher Reply Request Transport)
open Store (Counter.all Counter.get Database Session Storing Worker)
open Sync (Books Engine Follower Ledger Surroundings)

/-- Everything around a node, over a state. -/
structure Site (σ : Type) where
  send : Request → σ → Reply × σ
  /-- Waits for a time, or until the node is cancelled. -/
  rest : Duration → σ → σ
  cancelled : σ → Bool
  cancel : σ → σ
  /-- Starts the watchdogs for end conditions. -/
  watch : EndConditions → σ → σ
  ledger : Ledger σ

namespace Site

/-- How requests leave a site.  A cancelled node wants no answers. -/
def transport (site : Site σ) : Transport σ :=
  ⟨site.send, site.rest, site.cancelled⟩

/-- What the engine of a node meets at a site. -/
def surroundings (site : Site σ) (config : NodeConfig) : Surroundings σ :=
  let fetcher := Fetcher.ofConfig config.fetcher
  { cancelled := site.cancelled
    status := fetcher.status site.transport config.network
    block := fun index _ => fetcher.block site.transport config.network (.atIndex index)
    rest := site.rest }

end Site

/-- How a node follows its chain: with an index of transactions. -/
def follower (config : NodeConfig) : Follower :=
  (Follower.mk [Worker.transactionIndex] Engine.defaultConcurrency).withConcurrency
    config.concurrency

/-- The books of a node over its database. -/
def books (config : NodeConfig) (database : Database) (files : EventLog.Files) : Books :=
  ⟨⟨[], config.cacheSize⟩, Session.reliable database, config.eventLog, files⟩

/-- Follows the chain from `start` through `final`.  The run cancels the node when it
is over, which ends the watchdogs; so a node runs once, and later runs end at once. -/
def run (config : NodeConfig) (site : Site σ) (start final : Int64) (fuel : Nat) (world : σ) :
    Option (Except SyncError Unit) × σ :=
  let world := site.watch config.endConditions world
  let (result, world) := (follower config).sync (site.surroundings config) site.ledger
    start final fuel world
  (result, site.cancel world)

/-- The wordings of a failed run: what failed, and every cause inwards. -/
def failureTexts (error : SyncError) : List String :=
  "Sync failed" :: error.message :: error.sources

/-- The counters of a node with their values. -/
def counters : Storing (List (String × Int64)) :=
  Counter.all.mapM fun name => do return (name, ← Counter.get name)

end ChainFollower.Node
