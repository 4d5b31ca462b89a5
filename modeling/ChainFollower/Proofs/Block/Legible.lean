import ChainFollower.Block.Form
import ChainFollower.Proofs.Json.Records

/-!
# Blocks read back

The layout of every record a chain is described by, from which each of them is legible.
-/

namespace ChainFollower

open Json
open Json.FreeForm (freeForm)
open Json.Part (required optional defaulted)
open Json.Row (cons nil)

/-! ## Free-form values of a record -/

instance : FreeForm NetworkId := ⟨fun _ => []⟩

instance : FreeForm BlockId := ⟨fun _ => []⟩

instance : FreeForm BlockQuery := ⟨fun _ => []⟩

instance : FreeForm TransactionId := ⟨fun _ => []⟩

instance : FreeForm OperationId := ⟨fun _ => []⟩

instance : FreeForm Account := ⟨fun account => freeForm account.metadata⟩

instance : FreeForm Currency := ⟨fun _ => []⟩

instance : FreeForm Amount := ⟨fun _ => []⟩

instance : FreeForm Operation :=
  ⟨fun operation => freeForm operation.account ++ freeForm operation.metadata⟩

instance : FreeForm Transaction :=
  ⟨fun transaction => freeForm transaction.operations ++ freeForm transaction.metadata⟩

instance : FreeForm Block :=
  ⟨fun block => freeForm block.transactions ++ freeForm block.metadata⟩

instance : FreeForm Peer := ⟨fun peer => freeForm peer.metadata⟩

instance : FreeForm NetworkStatus := ⟨fun status => freeForm status.peers⟩

/-! ## Identifiers -/

namespace NetworkId

def layout : Layout NetworkId (String × String × Unit) where
  row := cons "blockchain" (required String) (cons "network" (required String) nil)
  toRow id := (id.blockchain, id.network, ())
  ofRow := fun (blockchain, network, _) => ⟨blockchain, network⟩
  build := _
  read?_eq := rfl
  build_eq
    | _, [_, _], _ => rfl

instance : Legible NetworkId := layout.legible

instance : Solid NetworkId := layout.solid

end NetworkId

namespace BlockId

def layout : Layout BlockId (Int64 × String × Unit) where
  row := cons "index" (required Int64) (cons "hash" (required String) nil)
  toRow id := (id.index, id.hash, ())
  ofRow := fun (index, hash, _) => ⟨index, hash⟩
  build := _
  read?_eq := rfl
  build_eq
    | _, [_, _], _ => rfl

instance : Legible BlockId := layout.legible

instance : Solid BlockId := layout.solid

end BlockId

namespace BlockQuery

def layout : Layout BlockQuery (Option Int64 × Option String × Unit) where
  row := cons "index" (optional Int64) (cons "hash" (optional String) nil)
  toRow query := (query.index, query.hash, ())
  ofRow := fun (index, hash, _) => ⟨index, hash⟩
  build := _
  read?_eq := rfl
  build_eq
    | _, [_, _], _ => rfl

instance : Legible BlockQuery := layout.legible

instance : Solid BlockQuery := layout.solid

end BlockQuery

namespace TransactionId

def layout : Layout TransactionId (String × Unit) where
  row := cons "hash" (required String) nil
  toRow id := (id.hash, ())
  ofRow := fun (hash, _) => ⟨hash⟩
  build := _
  read?_eq := rfl
  build_eq
    | _, [_], _ => rfl

instance : Legible TransactionId := layout.legible

instance : Solid TransactionId := layout.solid

end TransactionId

namespace OperationId

def layout : Layout OperationId (Int64 × Option Int64 × Unit) where
  row := cons "index" (required Int64) (cons "network_index" (optional Int64) nil)
  toRow id := (id.index, id.networkIndex, ())
  ofRow := fun (index, networkIndex, _) => ⟨index, networkIndex⟩
  build := _
  read?_eq := rfl
  build_eq
    | _, [_, _], _ => rfl

instance : Legible OperationId := layout.legible

instance : Solid OperationId := layout.solid

end OperationId

/-! ## Operations -/

namespace Account

def layout : Layout Account (String × Option Json × Unit) where
  row := cons "address" (required String) (cons "metadata" (optional Json) nil)
  toRow account := (account.address, account.metadata, ())
  ofRow := fun (address, metadata, _) => ⟨address, metadata⟩
  build := _
  read?_eq := rfl
  build_eq
    | _, [_, _], _ => rfl

instance : Legible Account := layout.legible

instance : Solid Account := layout.solid

end Account

namespace Currency

def layout : Layout Currency (String × Int32 × Unit) where
  row := cons "symbol" (required String) (cons "decimals" (required Int32) nil)
  toRow currency := (currency.symbol, currency.decimals, ())
  ofRow := fun (symbol, decimals, _) => ⟨symbol, decimals⟩
  build := _
  read?_eq := rfl
  build_eq
    | _, [_, _], _ => rfl

instance : Legible Currency := layout.legible

instance : Solid Currency := layout.solid

end Currency

namespace Amount

def layout : Layout Amount (String × Currency × Unit) where
  row := cons "value" (required String) (cons "currency" (required Currency) nil)
  toRow amount := (amount.value, amount.currency, ())
  ofRow := fun (value, currency, _) => ⟨value, currency⟩
  build := _
  read?_eq := rfl
  build_eq
    | _, [_, _], _ => rfl

instance : Legible Amount := layout.legible

instance : Solid Amount := layout.solid

end Amount

namespace Operation

def layout : Layout Operation
    (OperationId × String × Option String × Option Account × Option Amount × Option Json × Unit) where
  row := cons "operation_identifier" (required OperationId) (cons "type" (required String)
    (cons "status" (optional String) (cons "account" (optional Account)
      (cons "amount" (optional Amount) (cons "metadata" (optional Json) nil)))))
  toRow operation := (operation.id, operation.kind, operation.status, operation.account,
    operation.amount, operation.metadata, ())
  ofRow := fun (id, kind, status, account, amount, metadata, _) =>
    ⟨id, kind, status, account, amount, metadata⟩
  freeForm_eq operation := by
    have noStatus : freeForm operation.status = [] := by simp [freeForm]
    have noAmount : freeForm operation.amount = [] := by simp [freeForm]
    change freeForm operation.account ++ freeForm operation.metadata =
      freeForm operation.status ++ (freeForm operation.account ++
        (freeForm operation.amount ++ (freeForm operation.metadata ++ [])))
    rw [noStatus, noAmount, List.nil_append, List.nil_append, List.append_nil]
  build := _
  read?_eq := rfl
  build_eq
    | _, [_, _, _, _, _, _], _ => rfl

instance : Legible Operation := layout.legible

instance : Solid Operation := layout.solid

end Operation

/-! ## Transactions and blocks -/

namespace Transaction

def layout : Layout Transaction (TransactionId × List Operation × Option Json × Unit) where
  row := cons "transaction_identifier" (required TransactionId)
    (cons "operations" (defaulted Operation) (cons "metadata" (optional Json) nil))
  toRow transaction := (transaction.id, transaction.operations, transaction.metadata, ())
  ofRow := fun (id, operations, metadata, _) => ⟨id, operations, metadata⟩
  build := _
  read?_eq := rfl
  build_eq
    | _, [_, _, _], _ => rfl

instance : Legible Transaction := layout.legible

instance : Solid Transaction := layout.solid

end Transaction

namespace Block

def layout :
    Layout Block (BlockId × BlockId × Int64 × List Transaction × Option Json × Unit) where
  row := cons "block_identifier" (required BlockId)
    (cons "parent_block_identifier" (required BlockId) (cons "timestamp" (required Int64)
      (cons "transactions" (defaulted Transaction) (cons "metadata" (optional Json) nil))))
  toRow block := (block.id, block.parent, block.timestamp, block.transactions, block.metadata, ())
  ofRow := fun (id, parent, timestamp, transactions, metadata, _) =>
    ⟨id, parent, timestamp, transactions, metadata⟩
  build := _
  read?_eq := rfl
  build_eq
    | _, [_, _, _, _, _], _ => rfl

instance : Legible Block := layout.legible

instance : Solid Block := layout.solid

end Block

/-! ## The network -/

namespace Peer

def layout : Layout Peer (String × Option Json × Unit) where
  row := cons "peer_id" (required String) (cons "metadata" (optional Json) nil)
  toRow peer := (peer.id, peer.metadata, ())
  ofRow := fun (id, metadata, _) => ⟨id, metadata⟩
  build := _
  read?_eq := rfl
  build_eq
    | _, [_, _], _ => rfl

instance : Legible Peer := layout.legible

instance : Solid Peer := layout.solid

end Peer

namespace NetworkStatus

def layout :
    Layout NetworkStatus (BlockId × Int64 × BlockId × Option BlockId × List Peer × Unit) where
  row := cons "current_block_identifier" (required BlockId)
    (cons "current_block_timestamp" (required Int64)
      (cons "genesis_block_identifier" (required BlockId)
        (cons "oldest_block_identifier" (optional BlockId) (cons "peers" (defaulted Peer) nil))))
  toRow status := (status.current, status.currentTimestamp, status.genesis, status.oldest,
    status.peers, ())
  ofRow := fun (current, currentTimestamp, genesis, oldest, peers, _) =>
    ⟨current, currentTimestamp, genesis, oldest, peers⟩
  build := _
  read?_eq := rfl
  build_eq
    | _, [_, _, _, _, _], _ => rfl

instance : Legible NetworkStatus := layout.legible

instance : Solid NetworkStatus := layout.solid

end NetworkStatus

end ChainFollower
