import ChainFollower.Block.Basic
import ChainFollower.Json.Form

/-!
# JSON forms of blocks

The field names and their order, which fields are optional, and which have a
default.
-/

namespace ChainFollower

open Json

instance : Form NetworkId where
  write id := writeObject (field "blockchain" id.blockchain ++ field "network" id.network)
  read? := Written.record? ["blockchain", "network"] fun room slots =>
    match slots with
    | [blockchain, network] => do
        some ⟨← required? room blockchain, ← required? room network⟩
    | _ => none

instance : Form BlockId where
  write id := writeObject (field "index" id.index ++ field "hash" id.hash)
  read? := Written.record? ["index", "hash"] fun room slots =>
    match slots with
    | [index, hash] => do some ⟨← required? room index, ← required? room hash⟩
    | _ => none

instance : Form BlockQuery where
  write query :=
    writeObject (optionalField "index" query.index ++ optionalField "hash" query.hash)
  read? := Written.record? ["index", "hash"] fun room slots =>
    match slots with
    | [index, hash] => do some ⟨← optional? room index, ← optional? room hash⟩
    | _ => none

instance : Form TransactionId where
  write id := writeObject (field "hash" id.hash)
  read? := Written.record? ["hash"] fun room slots =>
    match slots with
    | [hash] => do some ⟨← required? room hash⟩
    | _ => none

instance : Form OperationId where
  write id :=
    writeObject (field "index" id.index ++ optionalField "network_index" id.networkIndex)
  read? := Written.record? ["index", "network_index"] fun room slots =>
    match slots with
    | [index, networkIndex] => do
        some ⟨← required? room index, ← optional? room networkIndex⟩
    | _ => none

instance : Form Account where
  write account :=
    writeObject (field "address" account.address ++ optionalField "metadata" account.metadata)
  read? := Written.record? ["address", "metadata"] fun room slots =>
    match slots with
    | [address, metadata] => do
        some ⟨← required? room address, ← optional? room metadata⟩
    | _ => none

instance : Form Currency where
  write currency :=
    writeObject (field "symbol" currency.symbol ++ field "decimals" currency.decimals)
  read? := Written.record? ["symbol", "decimals"] fun room slots =>
    match slots with
    | [symbol, decimals] => do
        some ⟨← required? room symbol, ← required? room decimals⟩
    | _ => none

instance : Form Amount where
  write amount :=
    writeObject (field "value" amount.value ++ field "currency" amount.currency)
  read? := Written.record? ["value", "currency"] fun room slots =>
    match slots with
    | [value, currency] => do
        some ⟨← required? room value, ← required? room currency⟩
    | _ => none

instance : Form Operation where
  write operation :=
    writeObject (field "operation_identifier" operation.id ++ field "type" operation.kind ++
      optionalField "status" operation.status ++ optionalField "account" operation.account ++
      optionalField "amount" operation.amount ++ optionalField "metadata" operation.metadata)
  read? := Written.record?
    ["operation_identifier", "type", "status", "account", "amount", "metadata"]
    fun room slots =>
      match slots with
      | [id, kind, status, account, amount, metadata] => do
          some ⟨← required? room id, ← required? room kind, ← optional? room status,
            ← optional? room account, ← optional? room amount, ← optional? room metadata⟩
      | _ => none

instance : Form Transaction where
  write transaction :=
    writeObject (field "transaction_identifier" transaction.id ++
      field "operations" transaction.operations ++
      optionalField "metadata" transaction.metadata)
  read? := Written.record? ["transaction_identifier", "operations", "metadata"]
    fun room slots =>
      match slots with
      | [id, operations, metadata] => do
          some ⟨← required? room id, ← defaulted? [] room operations,
            ← optional? room metadata⟩
      | _ => none

instance : Form Block where
  write block :=
    writeObject (field "block_identifier" block.id ++
      field "parent_block_identifier" block.parent ++ field "timestamp" block.timestamp ++
      field "transactions" block.transactions ++ optionalField "metadata" block.metadata)
  read? := Written.record?
    ["block_identifier", "parent_block_identifier", "timestamp", "transactions", "metadata"]
    fun room slots =>
      match slots with
      | [id, parent, timestamp, transactions, metadata] => do
          some ⟨← required? room id, ← required? room parent, ← required? room timestamp,
            ← defaulted? [] room transactions, ← optional? room metadata⟩
      | _ => none

instance : Form Peer where
  write peer := writeObject (field "peer_id" peer.id ++ optionalField "metadata" peer.metadata)
  read? := Written.record? ["peer_id", "metadata"] fun room slots =>
    match slots with
    | [id, metadata] => do some ⟨← required? room id, ← optional? room metadata⟩
    | _ => none

instance : Form NetworkStatus where
  write status :=
    writeObject (field "current_block_identifier" status.current ++
      field "current_block_timestamp" status.currentTimestamp ++
      field "genesis_block_identifier" status.genesis ++
      optionalField "oldest_block_identifier" status.oldest ++ field "peers" status.peers)
  read? := Written.record?
    ["current_block_identifier", "current_block_timestamp", "genesis_block_identifier",
      "oldest_block_identifier", "peers"]
    fun room slots =>
      match slots with
      | [current, timestamp, genesis, oldest, peers] => do
          some ⟨← required? room current, ← required? room timestamp,
            ← required? room genesis, ← optional? room oldest, ← defaulted? [] room peers⟩
      | _ => none

end ChainFollower
