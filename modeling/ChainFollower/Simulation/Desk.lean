import ChainFollower.Program
import ChainFollower.Simulation.ChainNode

/-!
# Running the program

A desk at which the program is run: files, an environment, a remote node, and the
databases that earlier runs have left.
-/

namespace ChainFollower.Simulation

open Program (Ending Failure)
open Store (Database)

/-- Files, an environment, a remote node, and databases by directory. -/
structure Desk where
  files : List (String × String)
  environment : List (String × String)
  node : ChainNode
  databases : List (String × Database)
  /-- The time in milliseconds since the epoch. -/
  epochMillis : Int64

namespace Desk

/-- The parts of a path that matter. -/
def pathParts (path : String) : List String :=
  (path.splitOn "/").filter fun part => part != "" && part != "."

/-- A path in its simplest form. -/
def simplified (path : String) : String :=
  (if path.startsWith "/" then "/" else "") ++ String.intercalate "/" (pathParts path)

/-- The text of a file. -/
def read (desk : Desk) (path : String) : Option String :=
  desk.files.lookup (simplified path)

/-- The database in a directory; none where the path leads to a file. -/
def openDatabase (desk : Desk) (path : String) : Option Database :=
  let parts := pathParts path
  let prefixes := (List.range parts.length).map fun count => parts.take (count + 1)
  if prefixes.any fun start => (desk.read (String.intercalate "/" start)).isSome then none
  else some ((desk.databases.lookup (simplified path)).getD (.empty .durable))

/-- Keeps the database of a directory. -/
def keep (desk : Desk) (path : String) (database : Database) : Desk :=
  { desk with databases := (simplified path, database) ::
      desk.databases.filter fun entry => entry.1 != simplified path }

/-- The fuel for a run. -/
def fuel : Nat := 1000000

/-- Runs the program.  There is no end when a run does not end in time. -/
def run (desk : Desk) (arguments : List String) : Option Ending × Desk :=
  match CommandLine.parse arguments with
  | .error error => (some (.ofArguments error), desk)
  | .ok arguments =>
      match Program.plan desk.read desk.environment arguments with
      | .error failure => (some (.failed failure), desk)
      | .ok ⟨config, task⟩ =>
          match desk.openDatabase config.dataDirectory with
          | none => (some (.failed .database), desk)
          | some database =>
              let books := Node.books config database .fresh
              match task with
              | .counters =>
                  let (counters, books) := books.storing fun _ => Node.counters
                  (some (.ofCounters counters),
                    desk.keep config.dataDirectory books.session.database)
              | .follow start final =>
                  let visit : Visit := ⟨desk.node, books, 0, desk.epochMillis⟩
                  let (result, timed) := Node.run config Visit.site start final fuel
                    (Timed.start visit)
                  (result.map Ending.ofRun,
                    desk.keep config.dataDirectory timed.inner.books.session.database)

end Desk

end ChainFollower.Simulation
