import ChainFollower.Config.Basic

/-!
# Reading configurations

A configuration is read from values of any kind that can be taken as texts,
numbers, lists and records.  How strict that is depends on the kind of value: a
JSON text is taken literally, merged settings are converted leniently.
-/

namespace ChainFollower.Config

/-- Values that configurations are read from. -/
class Source (ν : Type) where
  isNull : ν → Bool
  text? : ν → Option String
  boolean? : ν → Option Bool
  signed? : ν → Option Int64
  unsigned? : ν → Option UInt64
  unsigned32? : ν → Option UInt32
  list? : ν → Option (List ν)
  /-- The name of the chosen alternative. -/
  choice? : ν → Option String
  /-- What is given for each of the named fields. -/
  record? : List String → ν → Option (List (Option ν))

variable {ν : Type} [Source ν]

/-- A field that has to be there. -/
def required? (read : ν → Option α) (slot : Option ν) : Option α :=
  slot.bind read

/-- A field that has a default when it is missing. -/
def defaulted? (fallback : α) (read : ν → Option α) : Option ν → Option α
  | none => some fallback
  | some value => read value

/-- A field that may be missing or null. -/
def optional? (read : ν → Option α) : Option ν → Option (Option α)
  | none => some none
  | some value => if Source.isNull value then some none else (read value).map some

/-- Reads a network. -/
def network? (value : ν) : Option NetworkId := do
  let [blockchain, network] ← Source.record? ["blockchain", "network"] value | none
  some ⟨← required? Source.text? blockchain, ← required? Source.text? network⟩

/-- Reads the four fields about retries. -/
def retryFields? : List (Option ν) → Option RetryConfig
  | [timeout, retries, initial, longest] => do
      let standard : RetryConfig := {}
      some {
        timeoutSeconds := ← defaulted? standard.timeoutSeconds Source.unsigned? timeout
        maxRetries := ← defaulted? standard.maxRetries Source.unsigned32? retries
        initialBackoffMillis :=
          ← defaulted? standard.initialBackoffMillis Source.unsigned? initial
        maxBackoffMillis := ← defaulted? standard.maxBackoffMillis Source.unsigned? longest }
  | _ => none

/-- The names of the fields about retries. -/
def retryNames : List String :=
  ["timeout_secs", "max_retries", "initial_backoff_ms", "max_backoff_ms"]

/-- Reads the rules of retrying. -/
def retry? (value : ν) : Option RetryConfig := do
  retryFields? (← Source.record? retryNames value)

/-- Reads how to reach the remote node. -/
def fetcher? (value : ν) : Option FetcherConfig := do
  let url :: retry ← Source.record? ("url" :: retryNames) value | none
  some ⟨← required? Source.text? url, ← retryFields? retry⟩

/-- Reads the conditions to stop. -/
def endConditions? (value : ν) : Option EndConditions := do
  let [delay, interval, duration] ← Source.record?
    ["tip_delay_secs", "tip_poll_interval_secs", "duration_secs"] value | none
  let standard : EndConditions := {}
  some {
    tipDelaySeconds := ← optional? Source.signed? delay
    tipPollIntervalSeconds :=
      ← defaulted? standard.tipPollIntervalSeconds Source.unsigned? interval
    durationSeconds := ← optional? Source.unsigned? duration }

/-- Reads the event log. -/
def eventLog? (value : ν) : Option EventLog := do
  let [directory, blocks, transactions] ← Source.record?
    ["directory", "log_blocks", "log_transactions"] value | none
  some {
    directory := ← optional? Source.text? directory
    logsBlocks := ← defaulted? false Source.boolean? blocks
    logsTransactions := ← defaulted? false Source.boolean? transactions }

/-- Reads a log format by its name. -/
def logFormat? (value : ν) : Option LogFormat :=
  (Source.choice? value).bind LogFormat.ofName?

/-- Reads a log output by its name. -/
def logOutput? (value : ν) : Option LogOutput :=
  (Source.choice? value).bind LogOutput.ofName?

/-- Reads a list of log outputs. -/
def logOutputs? (value : ν) : Option (List LogOutput) := do
  (← Source.list? value).mapM logOutput?

/-- Reads what to log about the program. -/
def logging? (value : ν) : Option LoggingConfig := do
  let [level, format, outputs, path, name] ← Source.record?
    ["level", "format", "outputs", "file_path", "file_name"] value | none
  let standard : LoggingConfig := {}
  some {
    level := ← defaulted? standard.level Source.text? level
    format := ← defaulted? standard.format logFormat? format
    outputs := ← defaulted? standard.outputs logOutputs? outputs
    filePath := ← optional? Source.text? path
    fileName := ← defaulted? standard.fileName Source.text? name }

/-- Reads the configuration of a node. -/
def node? (value : ν) : Option NodeConfig := do
  let [network, url, directory, concurrency, cache, start, final, retry, conditions, log,
      logging] ← Source.record?
    ["network", "online_url", "data_dir", "sync_concurrency", "block_cache_size",
      "start_index", "end_index", "retry", "end_conditions", "event_log", "logging"] value
    | none
  let network ← required? network? network
  let onlineUrl ← required? Source.text? url
  let standard : NodeConfig := { network, onlineUrl }
  some { standard with
    dataDirectory := ← defaulted? standard.dataDirectory Source.text? directory
    concurrency := ← defaulted? standard.concurrency Source.unsigned? concurrency
    cacheSize := ← defaulted? standard.cacheSize Source.unsigned? cache
    startIndex := ← defaulted? standard.startIndex Source.signed? start
    endIndex := ← defaulted? standard.endIndex Source.signed? final
    retry := ← defaulted? standard.retry retry? retry
    endConditions := ← defaulted? standard.endConditions endConditions? conditions
    eventLog := ← defaulted? standard.eventLog eventLog? log
    logging := ← defaulted? standard.logging logging? logging }

end ChainFollower.Config
