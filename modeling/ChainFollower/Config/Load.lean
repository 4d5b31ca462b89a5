import ChainFollower.Config.Lenient
import ChainFollower.Settings.Gather

/-!
# Loading the configuration of a node
-/

namespace ChainFollower.Config

/-- Why a configuration cannot be loaded. -/
inductive LoadError where
  /-- There is no file, or it is in no known format, or it cannot be understood. -/
  | unreadable
  /-- The settings do not make up a configuration. -/
  | unfit
  deriving DecidableEq, Repr

/-- The wording of a load error. -/
def LoadError.message : LoadError → String
  | .unreadable => "Failed to build configuration"
  | .unfit => "Failed to deserialize configuration"

/-- Loads the configuration of a node from a file and the environment.  A data
directory given apart comes last and replaces the configured one. -/
def load (read : String → Option String) (environment : List (String × String)) (path : String)
    (dataDirectory : Option String) : Except LoadError NodeConfig :=
  match Settings.gather? read environment path with
  | none => .error .unreadable
  | some settings =>
      match node? settings with
      | none => .error .unfit
      | some config =>
          .ok { config with dataDirectory := dataDirectory.getD config.dataDirectory }

end ChainFollower.Config
