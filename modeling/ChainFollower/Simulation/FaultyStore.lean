import ChainFollower.Store.BlockStore

/-!
# Stores that fail

A block store over a database in which chosen kinds of access fail.
-/

namespace ChainFollower.Simulation

open Store (Access BlockStore Database Session Storing)

/-- The name of a kind of access. -/
def accessName : Access → String
  | .get _ => "get"
  | .insert _ _ => "insert"
  | .erase _ => "remove"
  | .write _ => "write_batch"
  | .scan _ => "scan_prefix"

/-- A store, its database, and the kinds of access that fail with a text. -/
structure FaultyStore where
  store : BlockStore
  database : Database
  failing : List (String × String)

namespace FaultyStore

/-- Has a kind of access fail with a text from now on, or work again. -/
def setFailing (faulty : FaultyStore) (name : String) (text : Option String) : FaultyStore :=
  let others := faulty.failing.filter fun failing => failing.1 != name
  { faulty with failing := (text.map fun text => (name, text)).toList ++ others }

/-- Runs a computation on the database. -/
def run (faulty : FaultyStore) (act : Storing α) : Except SyncError α × FaultyStore :=
  let session : Session :=
    ⟨faulty.database, 0, fun _ access => faulty.failing.lookup (accessName access)⟩
  match act.run session with
  | .ok value session => (.ok value, { faulty with database := session.database })
  | .error error session => (.error error, { faulty with database := session.database })

/-- Adds blocks one after another, whether or not they are accepted, and returns what
came of the last. -/
def addAll (faulty : FaultyStore) : List Block → Except SyncError Unit × FaultyStore
  | [] => (.ok (), faulty)
  | [block] => faulty.run (faulty.store.add block)
  | block :: rest => (faulty.run (faulty.store.add block)).2.addAll rest

end FaultyStore

/-- What comes of a computation when no access fails. -/
def outcomeOf (database : Database) (act : Storing α) : Except SyncError α :=
  match act.run (Session.reliable database) with
  | .ok value _ => .ok value
  | .error error _ => .error error

end ChainFollower.Simulation
