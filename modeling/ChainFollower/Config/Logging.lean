import ChainFollower.Config.Basic

/-!
# Log levels

A level is a list of directives: a level for everything, or for a target, or for
spans with certain fields.  This module decides which levels are accepted, and
which logging configurations can be set up.
-/

namespace ChainFollower

/-- Why logging cannot be set up. -/
inductive LoggingError where
  | invalidLevel (level reason : String)
  | missingFilePath
  deriving DecidableEq, Repr

/-- The wording of a logging error. -/
def LoggingError.message : LoggingError → String
  | .invalidLevel level reason => "Invalid log level " ++ level ++ ": " ++ reason
  | .missingFilePath => "File output requires file_path"

namespace LoggingConfig

/-- Whether a text names a level: by its name in any case, by a number from 0 to
5, or by nothing at all. -/
def isLevel (text : List Char) : Bool :=
  let lower := String.ofList (text.map Char.toLower)
  lower ∈ ["", "off", "error", "warn", "info", "debug", "trace"] ||
    (match text.dropWhile (· == '+') |>.dropWhile (· == '0') with
    | [] => !text.isEmpty && text.getLast? == some '0'
    | [digit] => '1' ≤ digit && digit ≤ '5'
    | _ => false)

/-- Where the reading of a directive stands. -/
inductive DirectiveState where
  | start
  /-- In a level or the name of a target. -/
  | word
  /-- In the name of a span. -/
  | span
  /-- In a field of a span, with the characters of it read so far, last first. -/
  | field (read : List Char)
  /-- After the fields of a span. -/
  | fields
  /-- After a target or span. -/
  | target
  /-- In the level of a target or span, with its characters, last first. -/
  | level (read : List Char)
  deriving DecidableEq, Repr

/-- One character of a directive. -/
def directiveStep : DirectiveState → Char → Option DirectiveState
  | .start, '[' => some .span
  | .start, char =>
      if char.isAlphanum || char ∈ ['-', ':', '_'] || 128 ≤ char.toNat then some .word else none
  | .word, '=' => some (.level [])
  | .word, '[' => some .span
  | .word, _ => some .word
  | .target, '=' => some (.level [])
  | .target, _ => none
  | .span, ']' => some .target
  | .span, '\x7b' => some (.field [])
  | .span, _ => some .span
  | .field [], '\x7d' => none
  | .field _, '\x7d' => some .fields
  | .field read, char => some (.field (char :: read))
  | .fields, ']' => some .target
  | .fields, _ => none
  | .level read, char => some (.level (char :: read))

/-- Whether a text is a directive. -/
def isDirective (text : List Char) : Bool :=
  match text.foldlM directiveStep DirectiveState.start with
  | some .word | some .target => true
  | some (.level read) => isLevel read.reverse
  | _ => false

/-- Parts of a text between commas. -/
def commaParts (text : List Char) : List (List Char) :=
  text.foldr (fun char parts =>
    if char = ',' then [] :: parts
    else
      match parts with
      | [] => [[char]]
      | part :: rest => (char :: part) :: rest) [[]]

/-- Whether a text is a list of directives; empty ones do not count. -/
def isFilter (text : String) : Bool :=
  ((commaParts text.toList).filter fun part => !part.isEmpty).all isDirective

/-- Checks that logging can be set up.  A valid `override` replaces the configured
level.  The level is checked before the outputs. -/
def check (config : LoggingConfig) (override : Option String) : Except LoggingError Unit :=
  if !override.any isFilter && !isFilter config.level then
    .error (.invalidLevel config.level "invalid filter directive")
  else if .file ∈ config.outputs ∧ config.filePath.isNone then
    .error .missingFilePath
  else .ok ()

end LoggingConfig

end ChainFollower
