import ChainFollower.Block.Basic
import ChainFollower.Error

/-!
# The event log

Two streams of lines about what happened to the chain: one of blocks added and
removed, one of the transactions of the blocks added.
-/

namespace ChainFollower

/-- What is logged, and where. -/
structure EventLog where
  /-- The directory of the streams; nothing is logged without one. -/
  directory : Option String
  logsBlocks : Bool
  logsTransactions : Bool
  deriving DecidableEq, Repr

namespace EventLog

/-- A stream of the log. -/
inductive Stream where
  | blocks
  | transactions
  deriving DecidableEq, Repr

/-- The file that holds a stream. -/
def Stream.file : Stream → String
  | .blocks => "blocks.txt"
  | .transactions => "transactions.txt"

/-- Text to be appended to a stream. -/
structure Append where
  stream : Stream
  text : String
  deriving DecidableEq, Repr

/-- A block's place as the log shows it. -/
def place (id : BlockId) : String :=
  toString id.index ++ ":" ++ id.hash

/-- The line about an added block. -/
def additionLine (block : Block) : String :=
  "Add block " ++ place block.id ++ " with " ++ toString block.transactions.length ++
    " transactions\n"

/-- The line about a removed block. -/
def removalLine (id : BlockId) : String :=
  "Remove block " ++ place id ++ "\n"

/-- The line about a transaction of an added block. -/
def transactionLine (id : BlockId) (transaction : Transaction) : String :=
  "Transaction " ++ transaction.id.hash ++ " at " ++ place id ++ " with " ++
    toString transaction.operations.length ++ " operations\n"

/-- What an added block appends, in order. -/
def addition (log : EventLog) (block : Block) : List Append :=
  if log.directory.isNone then []
  else
    (if log.logsBlocks then [⟨.blocks, additionLine block⟩] else []) ++
      (if log.logsTransactions ∧ block.transactions ≠ [] then
        [⟨.transactions, String.join (block.transactions.map (transactionLine block.id))⟩]
      else [])

/-- What a removed block appends. -/
def removal (log : EventLog) (id : BlockId) : List Append :=
  if log.directory.isSome ∧ log.logsBlocks then [⟨.blocks, removalLine id⟩] else []

/-! ## The files -/

/-- The files of a log, each absent until it is first written; and the text with
which every write fails, if the directory cannot be written. -/
structure Files where
  blocks : Option String
  transactions : Option String
  failure : Option String
  deriving DecidableEq, Repr

/-- The files of a writable directory before anything is logged. -/
def Files.fresh : Files := ⟨none, none, none⟩

/-- Appends one text to its stream. -/
def Files.append (files : Files) (entry : Append) : Except SyncError Files :=
  match files.failure with
  | some text => .error (.io text)
  | none =>
      match entry.stream with
      | .blocks => .ok { files with blocks := some (files.blocks.getD "" ++ entry.text) }
      | .transactions =>
          .ok { files with transactions := some (files.transactions.getD "" ++ entry.text) }

/-- Appends texts in order and stops at the first that fails; the earlier ones
stay written. -/
def Files.appendAll (files : Files) : List Append → Except SyncError Unit × Files
  | [] => (.ok (), files)
  | entry :: rest =>
      match files.append entry with
      | .ok files => files.appendAll rest
      | .error error => (.error error, files)

end EventLog

end ChainFollower
