import ChainFollower.Block.Form
import ChainFollower.Store.Key
import ChainFollower.Store.Session

/-!
# Workers

Workers add their own changes to the batch in which a block is added or removed,
so that those are applied together with the block or not at all.
-/

namespace ChainFollower.Store

/-- What else is stored when a block is added or removed.  Each function is given
the batch staged so far and extends it, or refuses the block. -/
structure Worker where
  adding : Block → Batch → Except SyncError Batch
  removing : Block → Batch → Except SyncError Batch

namespace Worker

/-- Passes a batch through the workers in order. -/
def stage (stages : List (Batch → Except SyncError Batch)) (batch : Batch) :
    Except SyncError Batch :=
  stages.foldlM (fun staged step => step staged) batch

/-! ## The transaction index -/

/-- The keys of the transactions of a block. -/
def transactionKeys (block : Block) : List Bytes :=
  block.transactions.map fun transaction =>
    (Key.transaction transaction.id.hash block.id.hash).bytes

/-- Keeps, for every transaction of every stored block, the block it is in. -/
def transactionIndex : Worker where
  adding block batch :=
    .ok (batch ++ (transactionKeys block).map (.put · (Json.encode block.id)))
  removing block batch := .ok (batch ++ (transactionKeys block).map .delete)

end Worker

/-- The stored blocks that carry a transaction, in the order of their keys. -/
def findTransaction (hash : String) : Storing (List BlockId) := do
  let entries ← Session.scan (Key.transactionStart hash)
  entries.mapM fun entry => decodeStored entry.2

end ChainFollower.Store
