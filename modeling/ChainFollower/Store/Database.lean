import ChainFollower.Store.Map

/-!
# Databases

An ordered database of byte strings with two backends.  The volatile one applies
the changes of a batch one after another and scans a range of keys; the durable
one reduces a batch to the last change of each key before it applies it, and
selects keys by their leading bytes.
-/

namespace ChainFollower.Store

/-- A change of one entry. -/
inductive Change where
  | put (key value : Bytes)
  | delete (key : Bytes)
  deriving DecidableEq, Repr

namespace Change

/-- The key a change is about. -/
def key : Change → Bytes
  | .put key _ => key
  | .delete key => key

/-- The value under the key after the change. -/
def value? : Change → Option Bytes
  | .put _ value => some value
  | .delete _ => none

/-- The map after a change. -/
def apply (map : ByteMap) : Change → ByteMap
  | .put key value => map.insert key value
  | .delete key => map.erase key

end Change

/-- Changes that are applied as one unit, in order. -/
abbrev Batch := List Change

/-- The last change of each key, in the order of those changes. -/
def Batch.latest : Batch → Batch
  | [] => []
  | change :: rest =>
      if rest.any fun later => later.key == change.key then latest rest
      else change :: latest rest

/-- Where the entries of a database are kept. -/
inductive Backend where
  | volatile
  | durable
  deriving DecidableEq, Repr

/-- A database: its entries, and the backend that keeps them. -/
structure Database where
  backend : Backend
  entries : ByteMap

namespace Database

/-- A database without entries. -/
def empty (backend : Backend) : Database := ⟨backend, ByteMap.empty⟩

/-- The value under a key. -/
def get? (database : Database) (key : Bytes) : Option Bytes :=
  database.entries.get? key

/-- The database with a value under a key. -/
def insert (database : Database) (key value : Bytes) : Database :=
  { database with entries := database.entries.insert key value }

/-- The database without a key. -/
def erase (database : Database) (key : Bytes) : Database :=
  { database with entries := database.entries.erase key }

/-- The database after all changes of a batch. -/
def write (database : Database) (batch : Batch) : Database :=
  let changes :=
    match database.backend with
    | .volatile => batch
    | .durable => batch.latest
  { database with entries := changes.foldl Change.apply database.entries }

/-- The entries whose keys start with the given bytes, in ascending order. -/
def scan (database : Database) (start : Bytes) : List Entry :=
  match database.backend with
  | .volatile =>
      (database.entries.entries.dropWhile fun entry => entry.1 < start).takeWhile
        fun entry => Bytes.startsWith entry.1 start
  | .durable => database.entries.entries.filter fun entry => Bytes.startsWith entry.1 start

/-- The number of entries. -/
def size (database : Database) : Nat :=
  database.entries.size

end Database

end ChainFollower.Store
