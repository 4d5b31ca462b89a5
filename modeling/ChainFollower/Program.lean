import ChainFollower.CommandLine.Arguments
import ChainFollower.Config.Load
import ChainFollower.Config.Logging
import ChainFollower.Node

/-!
# The program

What the program does with its arguments: it loads the configuration, checks that
logging can be set up, opens the database, and carries out the command.  Each of
these may fail, in this order.
-/

namespace ChainFollower.Program

open CommandLine (ArgumentError Arguments)

/-- Why the program fails after its arguments are understood. -/
inductive Failure where
  | load (error : Config.LoadError)
  | logging (error : LoggingError)
  | database
  | counters (error : SyncError)
  | run (error : SyncError)
  | panicked (text : String)
  deriving DecidableEq, Repr

/-- The wording of a failure, without its causes. -/
def Failure.message : Failure → String
  | .load error => error.message
  | .logging error => error.message
  | .database => "Failed to open Sled database"
  | .counters error => error.message
  | .run error => (Node.failureTexts error).headD ""
  | .panicked text => text

/-- The wordings of the causes of a failure, from the outermost inwards. -/
def Failure.causes : Failure → List String
  | .run error => (Node.failureTexts error).drop 1
  | .counters error => error.sources
  | .load _ | .logging _ | .database | .panicked _ => []

/-- The report of a failure with its causes. -/
def Failure.report : Failure → String
  | .panicked text => "panicked: " ++ text ++ "\n"
  | failure =>
      let causes :=
        match failure.causes with
        | [] => ""
        | causes => "\n\nCaused by:" ++ String.join (causes.map fun cause => "\n    " ++ cause)
      "Error: " ++ failure.message ++ causes ++ "\n"

/-- What is left to do once the configuration is known. -/
inductive Task where
  | counters
  | follow (start final : Int64)
  deriving DecidableEq, Repr

/-- The configuration, and what to do with it. -/
structure Plan where
  config : NodeConfig
  task : Task

/-- What to do.  Indices that the command leaves out are the configured ones, and
without a command the chain is followed as configured. -/
def task (config : NodeConfig) : Option CommandLine.Command → Task
  | none => .follow config.startIndex config.endIndex
  | some .counters => .counters
  | some (.sync start final) =>
      .follow (start.getD config.startIndex) (final.getD config.endIndex)

/-- The variable that replaces the configured level. -/
def levelVariable : String := "RUST_LOG"

/-- Loads the configuration and checks that logging can be set up. -/
def plan (read : String → Option String) (environment : List (String × String))
    (arguments : Arguments) : Except Failure Plan := do
  let loaded := Config.load read environment arguments.config arguments.dataDirectory
  let config ← loaded.mapError .load
  (config.logging.check (environment.lookup levelVariable)).mapError .logging
  return ⟨config, task config arguments.command⟩

/-! ## Endings -/

/-- How the program ends: its exit code, what it has printed, and the failure it
reports. -/
structure Ending where
  code : Nat
  output : String
  failure : Option Failure

namespace Ending

/-- Success, with what was printed. -/
def success (output : String) : Ending := ⟨0, output, none⟩

/-- Failure. -/
def failed (failure : Failure) : Ending := ⟨1, "", some failure⟩

/-- The end after arguments that are not carried out.  Help is no failure. -/
def ofArguments : ArgumentError → Ending
  | .displayHelp => ⟨0, "", none⟩
  | _ => ⟨2, "", none⟩

/-- The end after the counters were read. -/
def ofCounters : Except SyncError (List (String × Int64)) → Ending
  | .ok counters =>
      success (String.join (counters.map fun (name, value) =>
        name ++ ": " ++ toString value ++ "\n"))
  | .error error => failed (.counters error)

/-- The end after a run. -/
def ofRun : Except SyncError Unit → Ending
  | .ok () => success ""
  | .error (.panicked text) => ⟨101, "", some (.panicked text)⟩
  | .error error => failed (.run error)

end Ending

end ChainFollower.Program
