import ChainFollower.Program
import ChainFollower.Remote.Http
import ChainFollower.Store.Snapshot
import ChainFollower.Sync.Prompted
import ChainFollower.Sync.Watchdog
import Std.Async.DNS
import Std.Async.TCP
import Std.Async.Timer
import Std.Time.DateTime.Timestamp

/-!
# The command line

The program at work on real files, connections and clocks.  Every decision is made
by the library; this module reads, sends, waits and writes.
-/

namespace ChainFollower.Main

open Program (Ending Failure Plan)
open Remote (Fetcher Reply Request Transport)
open Std.Async (Async)
open Store (BlockStore Database)
open Sync (Books Engine Machine Progress Prompted Watchdog)

/-! ## Files -/

/-- The text of a file, if it can be read. -/
def readText? (path : String) : IO (Option String) := do
  try return some (← IO.FS.readFile path) catch _ => return none

/-- The texts of the files that a configuration path may name. -/
def configFiles (path : String) : IO (List (String × String)) := do
  let paths := path :: Settings.FileFormat.all.map fun format => path ++ "." ++ format.extension
  let texts ← paths.mapM fun path => do return (← readText? path).map fun text => (path, text)
  return texts.filterMap id

/-- The names and values of the environment. -/
def environment : IO (List (String × String)) := do
  let bytes ← try IO.FS.readBinFile "/proc/self/environ" catch _ => pure .empty
  let entries := (Bytes.toStringLossy bytes.toList).splitOn "\x00"
  return entries.map fun entry =>
    (String.ofList (entry.toList.takeWhile (· ≠ '=')),
      String.ofList ((entry.toList.dropWhile (· ≠ '=')).drop 1))

/-- The file in a data directory that holds the database. -/
def snapshotPath (directory : String) : String := directory ++ "/entries"

/-- Opens the database of a data directory, which is made if need be. -/
def openDatabase? (directory : String) : IO (Option Database) := do
  try
    IO.FS.createDirAll directory
    match ← readText? (snapshotPath directory) with
    | none => return some (.empty .durable)
    | some text => return Store.Snapshot.parse? .durable text
  catch _ => return none

/-- Writes the database of a data directory. -/
def saveDatabase (directory : String) (database : Database) : IO Unit := do
  let path := snapshotPath directory
  IO.FS.writeFile (path ++ ".new") (Store.Snapshot.text database)
  IO.FS.rename (path ++ ".new") path

/-- Appends a text to a stream of the event log. -/
def appendTo (directory : String) (stream : EventLog.Stream) : Option String → IO Unit
  | none => return
  | some text => do
      IO.FS.createDirAll directory
      IO.FS.withFile (directory ++ "/" ++ stream.file) .append fun handle => handle.putStr text

/-- Writes what a step has logged, as well as possible. -/
def writeLog (log : EventLog) (files : EventLog.Files) : IO Unit := do
  if let some directory := log.directory then
    try
      appendTo directory .blocks files.blocks
      appendTo directory .transactions files.transactions
    catch _ => return

/-! ## Requests -/

/-- Everything that comes back on a connection until it is closed. -/
partial def receive (client : Std.Async.TCP.Socket.Client) (received : ByteArray) :
    Async ByteArray := do
  match ← client.recv? 65536 with
  | none => return received
  | some more => receive client (received ++ more)

/-- Sends the bytes of a request and returns what comes back. -/
def exchange (address : Remote.Http.Address) (body : Bytes) : Async ByteArray := do
  let found : Array Std.Net.IPAddr ← Std.Async.DNS.getAddrInfo address.host "" (some .ipv4)
  match found.toList with
  | .v4 host :: _ =>
      let client ← Std.Async.TCP.Socket.Client.mk
      client.connect (.v4 ⟨host, address.service⟩)
      client.sendAll #[⟨(Remote.Http.requestBytes address body).toArray⟩]
      receive client .empty
  | _ => throw (IO.userError "no address")

/-- Sends a request and waits for the reply, for so many seconds at most. -/
def send (timeout : Nat) (request : Request) : IO Reply := do
  match Remote.Http.Address.parse? request.url with
  | none => return .failed "builder error"
  | some address =>
      let late : Async (Option ByteArray) := do
        (← Std.Async.Sleep.mk (.ofNat (timeout * 1000))).wait
        return none
      try
        match ← (Async.race (some <$> exchange address request.body) late).block with
        | some bytes => return Remote.Http.reply bytes.toList
        | none => return .failed "operation timed out"
      catch error => return .failed (toString error)

/-- Waits for so many milliseconds. -/
partial def wait (millis : Nat) : IO Unit := do
  let slice := min millis 1000000
  IO.sleep (.ofNat slice)
  if slice < millis then wait (millis - slice)

/-- A span of time in milliseconds, rounded up. -/
def toMillis (span : Duration) : Nat :=
  (span.toNanos + 999999) / 1000000

/-- Sends a request until it is settled. -/
partial def fetch (config : FetcherConfig) (decode : Bytes → Option α) (request : Request)
    (number : UInt32) : IO (Except SyncError α) := do
  let reply ← send config.retry.timeoutSeconds.toNat request
  match config.retry.backoff.verdict number (reply.outcome decode) with
  | .settled result => return result.mapError .fetch
  | .again delay =>
      wait (toMillis delay)
      fetch config decode request (number + 1)

/-! ## Runs -/

/-- The time in milliseconds since the epoch. -/
def epochMillis : IO Int64 := do
  return .ofInt (← Std.Time.Timestamp.now).toMillisecondsSinceUnixEpoch.toInt

/-- Has the watchdogs act that are due, and returns those that go on. -/
partial def watch (watchdogs : List Watchdog) (world : Prompted) :
    IO (List Watchdog × Prompted) := do
  let now ← IO.monoMsNow
  match watchdogs.findIdx? (Watchdog.acts now world.cancelled) with
  | none => return (watchdogs, world)
  | some place =>
      let epoch ← epochMillis
      let atTip (delay : Int64) (world : Prompted) : Sync.TipCheck × Prompted :=
        let (answer, books) := world.books.storing fun _ => BlockStore.atTip epoch delay
        (⟨answer, 0⟩, { world with books })
      match watchdogs[place]? with
      | none => return (watchdogs, world)
      | some watchdog =>
          match watchdog.act atTip now world.cancelled world with
          | (.returns, world) => watch (watchdogs.eraseIdx place) world
          | (.cancels, world) =>
              watch (watchdogs.eraseIdx place) { world with cancelled := true }
          | (.continues watchdog, world) => watch (watchdogs.set place watchdog) world

/-- Waits until a time or until a watchdog cancels. -/
partial def rest (finish : Nat) (watchdogs : List Watchdog) (world : Prompted) :
    IO (List Watchdog × Prompted) := do
  let (watchdogs, world) ← watch watchdogs world
  let now ← IO.monoMsNow
  if world.cancelled || finish ≤ now then return (watchdogs, world)
  wait (min (finish - now) 50)
  rest finish watchdogs world

/-- The answer that the next step of a machine asks for. -/
def prepare (config : NodeConfig) (machine : Machine Prompted) : IO (Machine Prompted) := do
  let fetcher := Fetcher.ofConfig config.fetcher
  match machine.prompt with
  | .nothing => return machine
  | .status =>
      let status ← fetch config.fetcher Json.decode? (fetcher.statusRequest config.network) 1
      return machine.moved { machine.world with status := some status }
  | .block index =>
      let answer ← fetch config.fetcher Json.decode?
        (fetcher.blockRequest config.network (.atIndex index)) 1
      return machine.moved
        { machine.world with block := some (answer.map Remote.BlockAnswer.block) }

/-- Takes steps until the engine ends.  The log is written after each step, the database
between rounds. -/
partial def follow (config : NodeConfig) (final : Int64) (watchdogs : List Watchdog)
    (machine : Machine Prompted) : IO (Except SyncError Unit × Prompted) := do
  let (watchdogs, world) ← watch watchdogs machine.world
  let machine ← prepare config (machine.moved world)
  let handler := Sync.Follower.handler Prompted.ledger
  let progress := machine.step Prompted.surroundings handler final
  let (ended, machine) :=
    match progress with
    | .running machine => (none, machine)
    | .ended result machine => (some result, machine)
  let world := machine.world
  writeLog config.eventLog world.books.files
  let world := { world with books := { world.books with files := .fresh } }
  match ended with
  | some result => return (result, world)
  | none =>
      if machine.remaining = 0 then
        saveDatabase config.dataDirectory world.books.session.database
      match world.pause with
      | none => follow config final watchdogs (machine.moved world)
      | some span =>
          let finish := (← IO.monoMsNow) + toMillis span
          let (watchdogs, world) ← rest finish watchdogs { world with pause := none }
          follow config final watchdogs (machine.moved world)

/-- Follows the chain from `start` through `final`. -/
def run (config : NodeConfig) (start final : Int64) (database : Database) :
    IO (Except SyncError Unit × Database) := do
  let watchdogs := Watchdog.ofConditions config.endConditions (← IO.monoMsNow)
  let world := Prompted.start (Node.books config database .fresh)
  match (Node.follower config).prepare Prompted.ledger start world with
  | (.error error, world) => return (.error error, world.books.session.database)
  | (.ok (start, engine), world) =>
      let fetcher := Fetcher.ofConfig config.fetcher
      let world ←
        if start ≠ -1 then pure world
        else do
          let status ← fetch config.fetcher Json.decode? (fetcher.statusRequest config.network) 1
          pure { world with status := some status }
      match Machine.settle Prompted.surroundings start ⟨engine, 0, world⟩ with
      | .ended result machine => return (result, machine.world.books.session.database)
      | .running machine =>
          let (result, world) ← follow config final watchdogs machine
          return (result, world.books.session.database)

/-! ## The program -/

/-- Carries out a plan. -/
def carryOut (plan : Plan) : IO Ending := do
  match ← openDatabase? plan.config.dataDirectory with
  | none => return .failed .database
  | some database =>
      match plan.task with
      | .counters =>
          let books := Node.books plan.config database .fresh
          return .ofCounters (books.storing fun _ => Node.counters).1
      | .follow start final =>
          let (result, database) ← run plan.config start final database
          saveDatabase plan.config.dataDirectory database
          return .ofRun result

/-- How the program is used. -/
def usage : String :=
  "Usage: chainsync [-c FILE] [-d DIR] [sync [--start-index N] [--end-index N] | counters]\n"

/-- Runs the program with its arguments, without its name. -/
def program (arguments : List String) : IO UInt32 := do
  match CommandLine.parse ("chainsync" :: arguments) with
  | .error error =>
      let ending := Ending.ofArguments error
      if ending.code = 0 then IO.print usage else IO.eprint usage
      return .ofNat ending.code
  | .ok arguments =>
      let files ← configFiles arguments.config
      let ending ←
        match Program.plan (fun path => files.lookup path) (← environment) arguments with
        | .error failure => pure (Ending.failed failure)
        | .ok plan => carryOut plan
      IO.print ending.output
      if let some failure := ending.failure then IO.eprint failure.report
      return .ofNat ending.code

end ChainFollower.Main

/-- Runs the program. -/
def main (arguments : List String) : IO UInt32 :=
  ChainFollower.Main.program arguments
