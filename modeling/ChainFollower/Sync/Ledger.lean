import ChainFollower.EventLog
import ChainFollower.Store.BlockStore
import ChainFollower.Store.Counter

/-!
# Ledgers

What the decisions of a run are recorded in: the block store, the event log and
the counters.  `Ledger.ofBooks` is the ledger over a database and the files of an
event log.
-/

namespace ChainFollower.Sync

open Store (BlockStore Session Storing Worker)

/-- Where a run records its decisions, over a state. -/
structure Ledger (σ : Type) where
  /-- Sets the workers of the block store. -/
  prepare : List Worker → σ → σ
  setStart : Int64 → σ → Except SyncError Unit × σ
  head : σ → Except SyncError BlockId × σ
  /-- The newest blocks, oldest first. -/
  recent : σ → Except SyncError (List Block) × σ
  add : Block → σ → Except SyncError Unit × σ
  remove : BlockId → σ → Except SyncError Unit × σ
  logAddition : Block → σ → Except SyncError Unit × σ
  logRemoval : BlockId → σ → Except SyncError Unit × σ
  count : String → Int64 → σ → Except SyncError Int64 × σ

/-- The block store, its database and the event log. -/
structure Books where
  store : BlockStore
  session : Session
  log : EventLog
  files : EventLog.Files

namespace Books

/-- Runs a computation on the database. -/
def storing (act : BlockStore → Storing α) (books : Books) : Except SyncError α × Books :=
  match act books.store books.session with
  | .ok value session => (.ok value, { books with session })
  | .error error session => (.error error, { books with session })

/-- Appends to the streams of the event log. -/
def logging (entries : EventLog → List EventLog.Append) (books : Books) :
    Except SyncError Unit × Books :=
  let (result, files) := books.files.appendAll (entries books.log)
  (result, { books with files })

end Books

namespace Ledger

/-- The ledger of a block store, its counters and an event log. -/
def ofBooks : Ledger Books where
  prepare workers books := { books with store := { books.store with workers } }
  setStart start := Books.storing fun store => store.setStart start
  head := Books.storing fun _ => BlockStore.head
  recent := Books.storing fun store => store.recent
  add block := Books.storing fun store => store.add block
  remove id := Books.storing fun store => store.remove id
  logAddition block := Books.logging fun log => log.addition block
  logRemoval id := Books.logging fun log => log.removal id
  count name delta := Books.storing fun _ => Store.Counter.update name delta

/-- An action on a part of a state as an action on the whole. -/
def onPart (get : τ → σ) (set : τ → σ → τ) (act : σ → α × σ) (whole : τ) : α × τ :=
  let (result, part) := act (get whole)
  (result, set whole part)

/-- A ledger over a part of a state as a ledger over the whole. -/
def within (ledger : Ledger σ) (get : τ → σ) (set : τ → σ → τ) : Ledger τ where
  prepare workers whole := set whole (ledger.prepare workers (get whole))
  setStart start := onPart get set (ledger.setStart start)
  head := onPart get set ledger.head
  recent := onPart get set ledger.recent
  add block := onPart get set (ledger.add block)
  remove id := onPart get set (ledger.remove id)
  logAddition block := onPart get set (ledger.logAddition block)
  logRemoval id := onPart get set (ledger.logRemoval id)
  count name delta := onPart get set (ledger.count name delta)

end Ledger

end ChainFollower.Sync
