import ChainFollower.Block.Basic
import ChainFollower.EventLog
import ChainFollower.Remote.Backoff
import ChainFollower.Store.BlockStore

/-!
# Configuration

What a node can be told: where the remote node is, how to follow it and when to
stop, what to log.
-/

namespace ChainFollower

/-! ## Requests -/

/-- How long to wait for an answer and how to retry, in seconds and
milliseconds. -/
structure RetryConfig where
  timeoutSeconds : UInt64 := 10
  maxRetries : UInt32 := 5
  initialBackoffMillis : UInt64 := 250
  maxBackoffMillis : UInt64 := 10000
  deriving DecidableEq, Repr, Inhabited

/-- The waits between attempts. -/
def RetryConfig.backoff (config : RetryConfig) : Remote.Backoff :=
  ⟨.ofMillis config.initialBackoffMillis.toNat, .ofMillis config.maxBackoffMillis.toNat,
    config.maxRetries⟩

/-- How to reach the remote node. -/
structure FetcherConfig where
  url : String
  retry : RetryConfig := {}
  deriving DecidableEq, Repr, Inhabited

/-! ## When to stop -/

/-- The conditions that end an otherwise unbounded run. -/
structure EndConditions where
  /-- Stop once the newest block is at most this many seconds old. -/
  tipDelaySeconds : Option Int64 := none
  tipPollIntervalSeconds : UInt64 := 10
  /-- Stop after this many seconds. -/
  durationSeconds : Option UInt64 := none
  deriving DecidableEq, Repr, Inhabited

/-! ## Logging -/

/-- How log records are written. -/
inductive LogFormat where
  | json
  | pretty
  deriving DecidableEq, Repr, Inhabited

namespace LogFormat

/-- The name of a format. -/
def name : LogFormat → String
  | .json => "json"
  | .pretty => "pretty"

/-- The format of this exact name. -/
def ofName? (name : String) : Option LogFormat :=
  [json, pretty].find? fun format => format.name == name

/-- The format of a name in any case.  No letter of the names has a capital
outside ASCII, so ASCII lowercase decides. -/
def parse (text : String) : Except String LogFormat :=
  match ofName? text.toLower with
  | some format => .ok format
  | none => .error ("Unknown log format: " ++ text)

end LogFormat

/-- Where log records go. -/
inductive LogOutput where
  | stdout
  | file
  deriving DecidableEq, Repr, Inhabited

namespace LogOutput

/-- The name of an output. -/
def name : LogOutput → String
  | .stdout => "stdout"
  | .file => "file"

/-- The output of this exact name. -/
def ofName? (name : String) : Option LogOutput :=
  [stdout, file].find? fun output => output.name == name

end LogOutput

/-- What is logged about the program itself, and where. -/
structure LoggingConfig where
  level : String := "info"
  format : LogFormat := .pretty
  outputs : List LogOutput := [.stdout]
  /-- The directory of log files, needed for file output. -/
  filePath : Option String := none
  fileName : String := "chainsync.log"
  deriving DecidableEq, Repr, Inhabited

/-! ## The node -/

/-- An event log that logs nothing. -/
def EventLog.disabled : EventLog := ⟨none, false, false⟩

/-- The configuration of a node. -/
structure NodeConfig where
  network : NetworkId
  /-- The address of the remote node. -/
  onlineUrl : String
  dataDirectory : String := "chainsync-data"
  concurrency : UInt64 := 8
  cacheSize : UInt64 := Store.BlockStore.defaultCacheSize
  /-- The first index to follow; -1 goes on after the stored head. -/
  startIndex : Int64 := -1
  /-- The last index to follow; -1 goes on until stopped. -/
  endIndex : Int64 := -1
  retry : RetryConfig := {}
  endConditions : EndConditions := {}
  eventLog : EventLog := .disabled
  logging : LoggingConfig := {}
  deriving DecidableEq, Repr

/-- How the node reaches the remote node. -/
def NodeConfig.fetcher (config : NodeConfig) : FetcherConfig :=
  ⟨config.onlineUrl, config.retry⟩

end ChainFollower
