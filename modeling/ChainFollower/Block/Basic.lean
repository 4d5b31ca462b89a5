import ChainFollower.Json.Value

/-!
# Blocks

The chain as a remote node describes it: blocks linked by identifiers, the
transactions and operations they carry, and the node's view of the network.
-/

namespace ChainFollower

/-! ## Identifiers -/

/-- The chain and network being followed. -/
structure NetworkId where
  blockchain : String
  network : String
  deriving DecidableEq, Repr, Inhabited

/-- A network is shown as `blockchain/network`. -/
def NetworkId.display (id : NetworkId) : String :=
  id.blockchain ++ "/" ++ id.network

/-- A block's place in the chain and its hash. -/
structure BlockId where
  index : Int64
  hash : String
  deriving DecidableEq, Repr, Inhabited

/-- A block is shown as `hash:index`. -/
def BlockId.display (id : BlockId) : String :=
  id.hash ++ ":" ++ toString id.index

/-- Asks for a block by whichever parts are given; by neither, for the latest. -/
structure BlockQuery where
  index : Option Int64
  hash : Option String
  deriving DecidableEq, Repr, Inhabited

namespace BlockQuery

/-- The latest block. -/
def latest : BlockQuery := ⟨none, none⟩

/-- The block at an index. -/
def atIndex (index : Int64) : BlockQuery := ⟨some index, none⟩

/-- Whether the query asks for the latest block. -/
def isLatest (query : BlockQuery) : Bool :=
  query.index.isNone && query.hash.isNone

end BlockQuery

/-- A transaction's hash. -/
structure TransactionId where
  hash : String
  deriving DecidableEq, Repr, Inhabited

/-- An operation's place in its transaction. -/
structure OperationId where
  index : Int64
  networkIndex : Option Int64
  deriving DecidableEq, Repr, Inhabited

/-! ## Operations -/

/-- An account, with whatever else the node says about it. -/
structure Account where
  address : String
  metadata : Option Json
  deriving Repr, Inhabited

/-- A currency and the number of its decimal places. -/
structure Currency where
  symbol : String
  decimals : Int32
  deriving DecidableEq, Repr, Inhabited

/-- A signed decimal quantity of a currency. -/
structure Amount where
  value : String
  currency : Currency
  deriving DecidableEq, Repr, Inhabited

/-- A step of a transaction that affects one balance.  Operations are stored and
counted, never interpreted. -/
structure Operation where
  id : OperationId
  kind : String
  status : Option String
  account : Option Account
  amount : Option Amount
  metadata : Option Json
  deriving Repr, Inhabited

/-- A transaction and its operations. -/
structure Transaction where
  id : TransactionId
  operations : List Operation
  metadata : Option Json
  deriving Repr, Inhabited

/-! ## Blocks -/

/-- A block of the chain; its timestamp is in milliseconds since the epoch. -/
structure Block where
  id : BlockId
  parent : BlockId
  timestamp : Int64
  transactions : List Transaction
  metadata : Option Json
  deriving Repr, Inhabited

namespace Block

/-- A genesis block is its own parent. -/
def isGenesis (block : Block) : Bool :=
  block.id == block.parent

/-- The number of operations in all transactions of the block. -/
def operationCount (block : Block) : Nat :=
  block.transactions.foldl (fun count transaction => count + transaction.operations.length) 0

end Block

/-! ## The network -/

/-- A peer of the remote node. -/
structure Peer where
  id : String
  metadata : Option Json
  deriving Repr, Inhabited

/-- The remote node's view of the network. -/
structure NetworkStatus where
  current : BlockId
  currentTimestamp : Int64
  genesis : BlockId
  oldest : Option BlockId
  peers : List Peer
  deriving Repr, Inhabited

end ChainFollower
