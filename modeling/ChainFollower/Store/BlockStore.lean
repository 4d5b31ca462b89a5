import ChainFollower.Saturating
import ChainFollower.Store.Worker

/-!
# The block store

The followed chain as a linked run of blocks that ends at the head.  Only a child
of the head may be added and only the head may be removed.  Each addition and
removal reads first and then writes a single batch.
-/

namespace ChainFollower.Store

/-- How blocks are stored: the workers that take part in every addition and
removal, and the number of blocks handed out to start from. -/
structure BlockStore where
  workers : List Worker
  cacheSize : UInt64

namespace BlockStore

/-- The number of blocks handed out to start from, unless set otherwise. -/
def defaultCacheSize : UInt64 := 20

/-! ## Reading -/

/-- The identifier of the newest block. -/
def head : Storing BlockId := do
  match ← Session.get? Key.head.bytes with
  | some bytes => decodeStored bytes
  | none => throw (.storage .headNotFound)

/-- The identifier of the newest block, or nothing for an empty store. -/
def head? : Storing (Option BlockId) :=
  tryCatch (some <$> head) fun error =>
    if error.isHeadNotFound then pure none else throw error

/-- Whether a block of this hash is stored. -/
def contains (hash : String) : Storing Bool := do
  return (← Session.get? (Key.block hash).bytes).isSome

/-- The block of an identifier; a block of the same hash and another index is not
the block asked for. -/
def block (id : BlockId) : Storing Block := do
  match ← Session.get? (Key.block id.hash).bytes with
  | none => throw (.storage (.blockNotFound id.display))
  | some bytes =>
      let block : Block ← decodeStored bytes
      if block.id.index = id.index then pure block
      else throw (.storage (.blockNotFound id.display))

/-- The block at an index. -/
def blockAt (index : Int64) : Storing Block := do
  match ← Session.get? (Key.index index).bytes with
  | none => throw (.storage (.blockNotFound ("index " ++ toString index)))
  | some bytes =>
      match Bytes.toString? bytes with
      | some hash => block ⟨index, hash⟩
      | none =>
          throw (.storage (.corruption ("index " ++ toString index ++ " hash: not UTF-8")))

/-- The newest block. -/
def headBlock : Storing Block := do
  block (← head)

/-! ## Adding and removing -/

/-- The changes that store a block and make it the head. -/
def additions (block : Block) : Batch :=
  [.put (Key.block block.id.hash).bytes (Json.encode block),
    .put (Key.index block.id.index).bytes (Bytes.ofString block.id.hash),
    .put Key.head.bytes (Json.encode block.id)]

/-- The changes that remove a block and make `newHead`, if any, the head. -/
def removals (id : BlockId) (newHead : Option BlockId) : Batch :=
  [.delete (Key.block id.hash).bytes, .delete (Key.index id.index).bytes,
    match newHead with
    | some parent => .put Key.head.bytes (Json.encode parent)
    | none => .delete Key.head.bytes]

/-- Adds a block that is not stored yet and is a child of the head.  The first
block of an empty store may have any parent. -/
def add (store : BlockStore) (block : Block) : Storing Unit := do
  if ← contains block.id.hash then
    throw (.storage (.duplicateBlock block.id.display))
  if let some head ← head? then
    if block.parent ≠ head then
      throw (.storage (.notChildOfHead block.id.display head.display))
  let batch ← MonadExcept.ofExcept <|
    Worker.stage (store.workers.map (·.adding block)) (additions block)
  Session.write batch

/-- Removes the head.  Its parent becomes the head if it is stored. -/
def remove (store : BlockStore) (id : BlockId) : Storing Unit := do
  let head ← head
  if head ≠ id then
    throw (.storage (.notHead id.display head.display))
  let block ← block id
  let linked ← if block.isGenesis then pure false else contains block.parent.hash
  let newHead := if linked then some block.parent else none
  let batch ← MonadExcept.ofExcept <|
    Worker.stage (store.workers.map (·.removing block)) (removals id newHead)
  Session.write batch

/-- Removes heads, `fuel` of them at most, until one is below `start`. -/
def rewind (store : BlockStore) (start : Int64) : (fuel : Nat) → (head : BlockId) → Storing Unit
  | 0, _ => pure ()
  | fuel + 1, head => do
      if start ≤ head.index then
        store.remove head
        match ← head? with
        | some next => rewind store start fuel next
        | none => pure ()

/-- Removes every block at or above `start`, so that the next block to add is at
`start`.  A start that would leave a gap after the head is refused.  Each removal
deletes a stored block, so there are no more removals than entries. -/
def setStart (store : BlockStore) (start : Int64) : Storing Unit := do
  if start < 0 then
    throw (.storage (.negativeStartIndex start))
  if let some head ← head? then
    if head.index + 1 < start then
      throw (.storage (.startIndexAhead head.index start))
    let entries := (← get).database.size
    store.rewind start (entries + 1) head

/-! ## Starting again -/

/-- The stored blocks at `count` indices from `first` on; indices without a block
are passed over, and any other failure gives no blocks at all. -/
def blocksFrom (first : Int64) : (count : Nat) → Storing (List Block)
  | 0 => pure []
  | count + 1 => do
      let found ← tryCatch (some <$> blockAt first) fun error =>
        match error with
        | .storage (.blockNotFound _) => pure none
        | error => throw error
      let rest ← blocksFrom (first + 1) count
      pure (found.toList ++ rest)

/-- The bytes that a block takes up in a list of blocks: 32 for each identifier, 8
for the timestamp, 24 for the transactions and 32 for the metadata. -/
def blockWidth : Nat := 128

/-- The most bytes that can be asked for at once. -/
def mostBytes : Nat := 9223372036854775807

/-- Whether room for as many blocks as may be handed out can be asked for. -/
def HasRoom (store : BlockStore) : Prop :=
  store.cacheSize.toNat * blockWidth ≤ mostBytes

instance (store : BlockStore) : Decidable store.HasRoom :=
  inferInstanceAs (Decidable (_ ≤ _))

/-- Makes room for the blocks to hand out.  To ask for too much is a panic. -/
def makeRoom (store : BlockStore) : Storing Unit :=
  if store.HasRoom then pure () else throw (.panicked "capacity overflow")

/-- The stored blocks of the last `cacheSize` indices, oldest first.  A failure
gives no blocks. -/
def recent (store : BlockStore) : Storing (List Block) := do
  let head ← tryCatch head? fun _ => pure none
  match head with
  | none => pure []
  | some head =>
      let oldest := max (head.index - store.cacheSize.toInt64 + 1) 0
      store.makeRoom
      tryCatch (blocksFrom oldest (head.index.toInt - oldest.toInt + 1).toNat) fun _ => pure []

/-- Whether the newest block is at most `delay` seconds old at the time `now`,
given in milliseconds. -/
def atTip (now delay : Int64) : Storing Bool := do
  match ← head? with
  | none => pure false
  | some id =>
      let newest ← block id
      return Saturating.sub now (Saturating.mul delay 1000) ≤ newest.timestamp

end BlockStore

end ChainFollower.Store
