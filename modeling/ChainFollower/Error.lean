/-!
# Errors

What can go wrong while following a chain, as causes.  The wording of each cause
is in its `message`.
-/

namespace ChainFollower

/-- Failures of the block and counter stores. -/
inductive StorageError where
  /-- The store holds no blocks yet. -/
  | headNotFound
  | blockNotFound (block : String)
  | duplicateBlock (block : String)
  | notChildOfHead (block head : String)
  | notHead (block head : String)
  /-- A start beyond the block after the head would leave a gap. -/
  | startIndexAhead (head start : Int64)
  | negativeStartIndex (start : Int64)
  | database (text : String)
  | corruption (text : String)
  deriving DecidableEq, Repr

/-- Failures of requests to the remote node. -/
inductive FetchError where
  | request (text : String)
  | status (code : Nat) (text : String)
  | invalidResponse (text : String)
  | retriesExhausted (attempts : Nat) (last : String)
  deriving DecidableEq, Repr

/-- Failures of following a chain. -/
inductive SyncError where
  | storage (cause : StorageError)
  | fetch (cause : FetchError)
  /-- An error together with what was being attempted. -/
  | context (attempt : String) (cause : SyncError)
  /-- The engine could not make progress. -/
  | syncer (text : String)
  | config (text : String)
  | io (text : String)
  | serialization (text : String)
  | internal (text : String)
  /-- A panic, which nothing handles. -/
  | panicked (text : String)
  deriving DecidableEq, Repr

/-- The wording of a store failure. -/
def StorageError.message : StorageError → String
  | .headNotFound => "head block not found"
  | .blockNotFound block => "block not found: " ++ block
  | .duplicateBlock block => "block " ++ block ++ " already exists"
  | .notChildOfHead block head => "block " ++ block ++ " does not extend head " ++ head
  | .notHead block head => "block " ++ block ++ " is not the head " ++ head
  | .startIndexAhead head start =>
      "last processed block " ++ toString head ++ " is less than start index " ++ toString start
  | .negativeStartIndex start => "start index " ++ toString start ++ " is negative"
  | .database text => "database failure: " ++ text
  | .corruption text => "corrupt entry: " ++ text

/-- The wording of a request failure. -/
def FetchError.message : FetchError → String
  | .request text => "request failed: " ++ text
  | .status code text => "server returned " ++ toString code ++ ": " ++ text
  | .invalidResponse text => "invalid response: " ++ text
  | .retriesExhausted attempts last =>
      "gave up after " ++ toString attempts ++ " attempts: " ++ last

/-! ## Kinds -/

/-- The name of the kind of a store failure. -/
def StorageError.kind : StorageError → String
  | .headNotFound => "HeadBlockNotFound"
  | .blockNotFound _ => "BlockNotFound"
  | .duplicateBlock _ => "DuplicateBlock"
  | .notChildOfHead _ _ => "NotChildOfHead"
  | .notHead _ _ => "NotHead"
  | .startIndexAhead _ _ => "StartIndexAhead"
  | .negativeStartIndex _ => "NegativeStartIndex"
  | .database _ => "Database"
  | .corruption _ => "Corruption"

/-- The name of the kind of a request failure. -/
def FetchError.kind : FetchError → String
  | .request _ => "Request"
  | .status _ _ => "Status"
  | .invalidResponse _ => "InvalidResponse"
  | .retriesExhausted _ _ => "RetriesExhausted"

namespace SyncError

/-- The name of the kind of an error, with the kind of what it wraps. -/
def kind : SyncError → String
  | .storage cause => "Storage." ++ cause.kind
  | .fetch cause => "Fetch." ++ cause.kind
  | .context _ cause => "Context(" ++ cause.kind ++ ")"
  | .syncer _ => "Syncer"
  | .config _ => "Config"
  | .io _ => "Io"
  | .serialization _ => "Serialization"
  | .internal _ => "Internal"
  | .panicked _ => "panic"

/-! ## Wordings of errors -/

/-- The wording of an error.  A context stands before what it wraps. -/
def message : SyncError → String
  | .storage cause => "Storage error: " ++ cause.message
  | .fetch cause => "Fetch error: " ++ cause.message
  | .context attempt cause => attempt ++ ": " ++ cause.message
  | .syncer text => "Syncer error: " ++ text
  | .config text => "Configuration error: " ++ text
  | .io text => "I/O error: " ++ text
  | .serialization text => "Serialization error: " ++ text
  | .internal text => "Internal error: " ++ text
  | .panicked text => text

/-- The wordings of the causes below an error, from the outermost inwards. -/
def sources : SyncError → List String
  | .storage cause => [cause.message]
  | .fetch cause => [cause.message]
  | .context _ cause => cause.message :: cause.sources
  | .io text => [text]
  | .syncer _ | .config _ | .serialization _ | .internal _ | .panicked _ => []

/-- Whether the error, or one it wraps, is that the store holds no blocks. -/
def isHeadNotFound : SyncError → Bool
  | .storage .headNotFound => true
  | .context _ cause => cause.isHeadNotFound
  | _ => false

/-- The error under further contexts, the first of them innermost. -/
def within (error : SyncError) (attempts : List String) : SyncError :=
  attempts.foldl (fun error attempt => .context attempt error) error

end SyncError

/-- An answer of a collaborator that one has to wait for: none when cancellation
cut the waiting short. -/
abbrev Awaited (α : Type) := Option (Except SyncError α)

end ChainFollower
