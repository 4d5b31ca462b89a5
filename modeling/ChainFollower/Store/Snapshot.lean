import ChainFollower.Store.Database

/-!
# Snapshots

The whole of a database as a text, one line for each entry.
-/

namespace ChainFollower.Store.Snapshot

/-- The line of an entry: its key and its value in hexadecimal. -/
def line (entry : Entry) : String :=
  Bytes.toHex entry.1 ++ " " ++ Bytes.toHex entry.2 ++ "\n"

/-- The text of a database. -/
def text (database : Database) : String :=
  String.join ((database.scan []).map line)

/-- The entry of a line without its end. -/
def entry? (line : String) : Option Entry :=
  match line.splitOn " " with
  | [key, value] => do return (← Bytes.ofHex? key, ← Bytes.ofHex? value)
  | _ => none

/-- The database of a text. -/
def parse? (backend : Backend) (text : String) : Option Database := do
  let entries ← ((text.splitOn "\n").filter (· ≠ "")).mapM entry?
  return entries.foldl (fun database entry => database.insert entry.1 entry.2) (.empty backend)

end ChainFollower.Store.Snapshot
