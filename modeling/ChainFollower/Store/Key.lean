import ChainFollower.Block.Basic
import ChainFollower.Bytes

/-!
# Database keys

Blocks, the index, the transaction index, counters and the head share one
keyspace; each kind of entry has its own leading bytes.
-/

namespace ChainFollower.Store

/-- What an entry of the database is about. -/
inductive Key where
  /-- A block under its hash. -/
  | block (hash : String)
  /-- The hash of the block at an index. -/
  | index (place : Int64)
  /-- A transaction in a block; competing blocks may carry the same one. -/
  | transaction (hash : String) (carrier : String)
  /-- A named counter. -/
  | counter (name : String)
  /-- The identifier of the newest block. -/
  | head
  deriving DecidableEq, Repr

namespace Key

/-- The leading bytes of the keys of blocks. -/
def blockStart : Bytes := Bytes.ofString "block/hash/"

/-- The leading bytes of the keys of indices. -/
def indexStart : Bytes := Bytes.ofString "block/index/"

/-- The leading bytes of the keys of a transaction, whichever block it is in. -/
def transactionStart (hash : String) : Bytes :=
  Bytes.ofString "tx/" ++ Bytes.ofString hash ++ Bytes.ofString "/"

/-- The bytes of a key.  An index is written as eight bytes, most significant
first, so that the keys of non-negative indices sort like the chain. -/
def bytes : Key → Bytes
  | .block hash => blockStart ++ Bytes.ofString hash
  | .index place => indexStart ++ Bytes.bigEndian 8 place.toUInt64.toNat
  | .transaction hash carrier => transactionStart hash ++ Bytes.ofString carrier
  | .counter name => Bytes.ofString "counter/" ++ Bytes.ofString name
  | .head => Bytes.ofString "head-block"

end Key

end ChainFollower.Store
