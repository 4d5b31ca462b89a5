import ChainFollower.Error
import ChainFollower.Json.Form
import ChainFollower.Store.Database

/-!
# Access to a database that may fail

Stores reach their database through a session, in which any access may fail with
a text.  A failed access leaves the database as it was.
-/

namespace ChainFollower.Store

/-- One access to a database. -/
inductive Access where
  | get (key : Bytes)
  | insert (key value : Bytes)
  | erase (key : Bytes)
  | write (batch : Batch)
  | scan (start : Bytes)
  deriving DecidableEq, Repr

/-- A database, the number of accesses made so far, and which accesses fail. -/
structure Session where
  database : Database
  accesses : Nat
  /-- The text with which the access of this number fails, if it does. -/
  fault : Nat → Access → Option String

/-- A computation that reaches a database through a session. -/
abbrev Storing := EStateM SyncError Session

namespace Session

/-- A session over a database in which no access fails. -/
def reliable (database : Database) : Session :=
  ⟨database, 0, fun _ _ => none⟩

/-- Makes an access: it either fails, or acts on the database. -/
def access (request : Access) (act : Database → α × Database) : Storing α := fun session =>
  let counted := { session with accesses := session.accesses + 1 }
  match session.fault session.accesses request with
  | some text => .error (.storage (.database text)) counted
  | none =>
      let (result, database) := act session.database
      .ok result { counted with database }

/-- Reads the value under a key. -/
def get? (key : Bytes) : Storing (Option Bytes) :=
  access (.get key) fun database => (database.get? key, database)

/-- Puts a value under a key. -/
def insert (key value : Bytes) : Storing Unit :=
  access (.insert key value) fun database => ((), database.insert key value)

/-- Removes a key. -/
def erase (key : Bytes) : Storing Unit :=
  access (.erase key) fun database => ((), database.erase key)

/-- Applies a batch as one unit. -/
def write (batch : Batch) : Storing Unit :=
  access (.write batch) fun database => ((), database.write batch)

/-- Reads the entries whose keys start with the given bytes. -/
def scan (start : Bytes) : Storing (List Entry) :=
  access (.scan start) fun database => (database.scan start, database)

end Session

/-- The value that stored bytes encode. -/
def decodeStored [Json.Form α] (bytes : Bytes) : Storing α :=
  match Json.decode? bytes with
  | some value => pure value
  | none => throw (.serialization "decode failed: not the expected JSON value")

end ChainFollower.Store
