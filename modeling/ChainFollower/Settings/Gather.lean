import ChainFollower.Json.Written
import ChainFollower.Settings.Path
import ChainFollower.Settings.Toml.Document

/-!
# Gathering settings

Settings come from a file, TOML or JSON by its extension, and from the environment,
which is laid over the file.
-/

namespace ChainFollower.Settings

/-! ## JSON files -/

mutual

/-- The setting that a JSON value is.  Integers of more than 64 bits with their sign
become floating. -/
def ofJson : Json → Setting
  | .null => .null
  | .boolean value => .flag value
  | .integer value =>
      match Decimal.word? value with
      | some word => .integer word
      | none =>
          match Decimal.Binary64.ofInt? value with
          | some number => .floating (.finite number)
          | none => .floating (.infinite (value < 0))
  | .double number => .floating (.finite number)
  | .string text => .text text
  | .array items => .list (ofItems items)
  | .object fields => .table (ofFields fields)

/-- The settings that JSON items are. -/
def ofItems : List Json → List Setting
  | [] => []
  | item :: rest => ofJson item :: ofItems rest

/-- The settings that JSON fields are. -/
def ofFields : List (String × Json) → List (String × Setting)
  | [] => []
  | (name, value) :: rest => (name, ofJson value) :: ofFields rest

end

/-! ## Files -/

/-- The format of a file. -/
inductive FileFormat where
  | toml
  | json
  deriving DecidableEq, Repr

namespace FileFormat

/-- The extension of files in a format. -/
def extension : FileFormat → String
  | .toml => "toml"
  | .json => "json"

/-- Every format. -/
def all : List FileFormat := [.toml, .json]

/-- The settings that a text in a format describes. -/
def parse? (text : String) : FileFormat → Option Setting
  | .toml => Toml.parse? text
  | .json => (Json.parse? (Bytes.ofString text)).map ofJson

end FileFormat

/-- The extension of a file's name: what follows its last point, unless the name
begins with that point. -/
def extension? (path : String) : Option String :=
  let name := (path.toList.reverse.takeWhile (· != '/')).reverse
  let last := (name.reverse.takeWhile (· != '.')).reverse
  if last.length + 1 < name.length then some (String.ofList last) else none

/-- The format and the text of the file that a path names.  When there is no file of
that very name, the name may lack the extension. -/
def locate? (read : String → Option String) (path : String) : Option (FileFormat × String) :=
  match read path with
  | some text => do
      let format ← FileFormat.all.find? fun format => extension? path == some format.extension
      return (format, text)
  | none =>
      FileFormat.all.findSome? fun format =>
        (read (path ++ "." ++ format.extension)).map fun text => (format, text)

/-! ## The environment -/

/-- How the names that hold settings begin in the environment, in lowercase. -/
def variableStart : List Char := "chainsync__".toList

/-- A name in lowercase, as far as that can lead to the letters of a setting: besides
the capital letters, the Kelvin sign becomes a letter. -/
def lowercase (char : Char) : Char :=
  if char == '\u212A' then 'k' else char.toLower

/-- A name with points for double underscores. -/
def withPoints : List Char → List Char
  | '_' :: '_' :: rest => '.' :: withPoints rest
  | char :: rest => char :: withPoints rest
  | [] => []

/-- The written path of the setting that a variable holds, if it holds one. -/
def variablePath? (name : String) : Option String :=
  let lowered := name.toList.map lowercase
  if variableStart.isPrefixOf lowered then
    some (String.ofList (withPoints (lowered.drop variableStart.length)))
  else none

/-- The settings in the environment, which are all texts. -/
def ofEnvironment (environment : List (String × String)) : List (String × Setting) :=
  environment.filterMap fun (name, value) =>
    (variablePath? name).map fun path => (path, .text value)

/-! ## Together -/

/-- The settings of a file with those of the environment over them; none when the file
cannot be read. -/
def gather? (read : String → Option String) (environment : List (String × String))
    (path : String) : Option Setting := do
  let (format, text) ← locate? read path
  let file ← format.parse? text
  return Setting.putAll (ofEnvironment environment) (Setting.putAll file.fields .empty)

end ChainFollower.Settings
