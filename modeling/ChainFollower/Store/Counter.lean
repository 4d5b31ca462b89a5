import ChainFollower.Saturating
import ChainFollower.Store.Key
import ChainFollower.Store.Session

/-!
# Counters

Named counters, each stored as eight bytes, most significant first.  A counter
that is not stored reads zero; sums stop at the bounds of a 64-bit word.
-/

namespace ChainFollower.Store.Counter

/-- The counter of blocks added. -/
def blocks : String := "blocks"

/-- The counter of transactions in the blocks added. -/
def transactions : String := "transactions"

/-- The counter of operations in the blocks added. -/
def operations : String := "operations"

/-- The counter of blocks removed again. -/
def orphans : String := "orphans"

/-- The counters of a node, in the order they are shown. -/
def all : List String := [blocks, transactions, operations, orphans]

/-- A value as it is stored. -/
def encode (value : Int64) : Bytes :=
  Bytes.bigEndian 8 value.toUInt64.toNat

/-- The value that eight bytes store. -/
def decode? (bytes : Bytes) : Option Int64 :=
  if bytes.length = 8 then some (UInt64.ofNat (Bytes.toNat bytes)).toInt64 else none

/-- The value of a counter. -/
def get (name : String) : Storing Int64 := do
  match ← Session.get? (Key.counter name).bytes with
  | none => pure 0
  | some bytes =>
      match decode? bytes with
      | some value => pure value
      | none =>
          throw (.storage (.corruption
            ("counter " ++ name ++ " has " ++ toString bytes.length ++ " bytes")))

/-- Adds to a counter and returns its new value. -/
def update (name : String) (delta : Int64) : Storing Int64 := do
  let value := Saturating.add (← get name) delta
  Session.insert (Key.counter name).bytes (encode value)
  pure value

end ChainFollower.Store.Counter
