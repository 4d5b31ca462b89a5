import ChainFollower.Cancellation
import ChainFollower.Config.Literal
import ChainFollower.Main
import ChainFollower.Proofs.Json.Documents
import ChainFollower.Remote.Http
import ChainFollower.Simulation.Chain
import ChainFollower.Simulation.Desk
import ChainFollower.Simulation.FaultyStore
import ChainFollower.Simulation.ScriptedReplies
import ChainFollower.Simulation.Trial
import ChainFollower.Simulation.Worker
import ChainFollower.Store.Snapshot
import ChainFollower.Sync.Prompted
import ChainFollower.Proofs.Store.Batches
import ChainFollower.Proofs.Store.Keys
import ChainFollower.Proofs.Store.Yields
import ChainFollower.Proofs.Store.Chains
import ChainFollower.Proofs.Store.Stored
import ChainFollower.Proofs.Store.Entries
import ChainFollower.Proofs.Store.Rewinding
import ChainFollower.Proofs.Store.Requests
import ChainFollower.Proofs.Store.Representation
import ChainFollower.Proofs.Store.Dangling
import ChainFollower.Proofs.Store.Recent
import ChainFollower.Proofs.Store.Window
import ChainFollower.Proofs.Store.Counters
import ChainFollower.Proofs.Sync.Recording
import ChainFollower.Proofs.Sync.Moves
import ChainFollower.Proofs.Sync.Preparation
import ChainFollower.Proofs.Sync.Lockstep
import ChainFollower.Proofs.Sync.FixedRemote
import ChainFollower.Proofs.Sync.Agreement
import ChainFollower.Proofs.Sync.Convergence
import ChainFollower.Proofs.Sync.Calls
import ChainFollower.Proofs.Sync.Discipline
import ChainFollower.Proofs.Sync.Runs
import ChainFollower.Proofs.Sync.Resumption
import ChainFollower.Proofs.Sync.Headless
import ChainFollower.Proofs.Sync.Repair
import ChainFollower.Proofs.Sync.Agenda
import ChainFollower.Proofs.Sync.Restarts
import ChainFollower.Proofs.Store.Steady
import ChainFollower.Proofs.Sync.Replay
import ChainFollower.Proofs.Sync.Trails
import ChainFollower.Proofs.Sync.Sights
import ChainFollower.Proofs.Sync.Batching
import ChainFollower.Proofs.Sync.Moments
import ChainFollower.Proofs.Sync.Cancelling
import ChainFollower.Proofs.Sync.Boundary
import ChainFollower.Proofs.Sync.Ranges
import ChainFollower.Proofs.Store.Tally
import ChainFollower.Proofs.Sync.Accounts
import ChainFollower.Proofs.Store.Twins
import ChainFollower.Proofs.Sync.Pairs
import ChainFollower.Proofs.Sync.Clerks
import ChainFollower.Proofs.Sync.Flights
import ChainFollower.Proofs.Store.Separators
import ChainFollower.Proofs.Json.Nesting
import ChainFollower.Proofs.Json.FreeForm
import ChainFollower.Proofs.Json.Records
import ChainFollower.Proofs.Block.Legible
import ChainFollower.Proofs.Block.RoundTrip
import ChainFollower.Proofs.Store.Indexing
import ChainFollower.Proofs.Store.Lookups
import ChainFollower.Proofs.Store.Upkeep
import ChainFollower.Proofs.Store.Truncation
import ChainFollower.Proofs.Store.Inverses
import ChainFollower.Proofs.Store.Composition
import ChainFollower.Proofs.Store.Atomicity
import ChainFollower.Proofs.Sync.Rounds
import ChainFollower.Proofs.Remote.Delays
import ChainFollower.Proofs.Remote.Retries
import ChainFollower.Proofs.Simulation.Events
import ChainFollower.Proofs.Simulation.Watches
import ChainFollower.Proofs.Store.Backends
import ChainFollower.Proofs.Store.Linked
import ChainFollower.Proofs.Store.Sorting
import ChainFollower.Proofs.Store.Interleaving
import ChainFollower.Proofs.Block.Bearings
import ChainFollower.Proofs.Sync.Chronicle
import ChainFollower.Proofs.Sync.Retracing
