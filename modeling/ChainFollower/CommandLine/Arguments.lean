import ChainFollower.Decimal.Integer

/-!
# Command lines

The arguments of the program: options, and a subcommand with options of its own.
An option may be given once, with its value in the same argument or in the next
one.

Values are only examined when the next option, the end of the arguments or a help
request makes it necessary; so an argument that cannot be understood is reported
before a bad value in front of it.
-/

namespace ChainFollower.CommandLine

/-- What the program is asked to do. -/
inductive Command where
  /-- Follow the chain, optionally from and through given indices. -/
  | sync (start final : Option Int64)
  /-- Show the counters. -/
  | counters
  deriving DecidableEq, Repr

/-- The arguments of the program. -/
structure Arguments where
  config : String := "config.toml"
  dataDirectory : Option String := none
  /-- What to do; following the chain when it is not said. -/
  command : Option Command := none
  deriving DecidableEq, Repr

/-- Why arguments are not understood, or not carried out. -/
inductive ArgumentError where
  /-- An option without a value, or with an empty one. -/
  | invalidValue
  /-- A value that is not an integer of 64 bits. -/
  | valueValidation
  /-- A value for a flag that takes none. -/
  | tooManyValues
  | unknownArgument
  | invalidSubcommand
  /-- An option given twice. -/
  | argumentConflict
  /-- Help was asked for. -/
  | displayHelp
  deriving DecidableEq, Repr

/-- The name of the kind of an argument error. -/
def ArgumentError.kind : ArgumentError → String
  | .invalidValue => "InvalidValue"
  | .valueValidation => "ValueValidation"
  | .tooManyValues => "TooManyValues"
  | .unknownArgument => "UnknownArgument"
  | .invalidSubcommand => "InvalidSubcommand"
  | .argumentConflict => "ArgumentConflict"
  | .displayHelp => "DisplayHelp"

/-! ## Options -/

/-- The values an option takes. -/
inductive ValueKind where
  | path
  /-- An integer of 64 bits, which may begin with a hyphen. -/
  | integer
  deriving DecidableEq, Repr

/-- An option with a value. -/
structure OptionSpec where
  long : String
  short : Option Char
  kind : ValueKind
  deriving DecidableEq, Repr

/-- The options and subcommands understood at one place of a command line. -/
structure Level where
  options : List OptionSpec
  subcommands : List String
  deriving DecidableEq, Repr

/-- The options of the program, and its subcommands. -/
def programLevel : Level :=
  ⟨[⟨"config", some 'c', .path⟩, ⟨"data-dir", some 'd', .path⟩], ["sync", "counters", "help"]⟩

/-- The options of following the chain. -/
def syncLevel : Level :=
  ⟨[⟨"start-index", none, .integer⟩, ⟨"end-index", none, .integer⟩], []⟩

/-- Showing the counters takes no options. -/
def countersLevel : Level := ⟨[], []⟩

/-- The integer that a text writes, if it has 64 bits. -/
def integer? (text : String) : Option Int64 :=
  (Decimal.integer? text.toList).bind Decimal.word?

/-- Whether an option may have a value, or why not. -/
def ValueKind.check (kind : ValueKind) (value : String) : Except ArgumentError Unit :=
  match kind with
  | .path => if value.isEmpty then .error .invalidValue else .ok ()
  | .integer => if (integer? value).isNone then .error .valueValidation else .ok ()

/-! ## Going through the arguments -/

/-- What has been read: the options with their values, and an option whose value
is not examined yet or still to come. -/
structure Scan where
  given : List (String × String)
  pending : Option (OptionSpec × Option String)

namespace Scan

/-- Nothing has been read. -/
def start : Scan := ⟨[], none⟩

/-- Takes an option with its value. -/
def take (scan : Scan) (option : OptionSpec) (value : String) : Except ArgumentError Scan :=
  if (scan.given.lookup option.long).isSome then .error .argumentConflict
  else do
    option.kind.check value
    .ok { scan with given := (option.long, value) :: scan.given }

/-- Examines the value that is pending, if any. -/
def settle (scan : Scan) : Except ArgumentError Scan :=
  match scan.pending with
  | none => .ok scan
  | some (_, none) => .error .invalidValue
  | some (option, some value) => { scan with pending := none }.take option value

/-- Reads an option: its value is in the same argument, or still to come. -/
def option (scan : Scan) (option : OptionSpec) (attached : Option String) :
    Except ArgumentError Scan := do
  let scan ← scan.settle
  match attached with
  | some value => scan.take option value
  | none => .ok { scan with pending := some (option, none) }

/-- Reads a help request. -/
def help (scan : Scan) : Except ArgumentError Scan := do
  let _ ← scan.settle
  .error .displayHelp

/-- The option that waits for its value, if any. -/
def awaiting? (scan : Scan) : Option OptionSpec :=
  match scan.pending with
  | some (option, none) => some option
  | _ => none

/-- Reads the value of the option that waits for it. -/
def value (scan : Scan) (option : OptionSpec) (value : String) : Scan :=
  { scan with pending := some (option, some value) }

end Scan

namespace Level

/-- Reads the name of a long option, with an attached value or without. -/
def long (level : Level) (scan : Scan) (text : List Char) : Except ArgumentError Scan :=
  let name := String.ofList (text.takeWhile (· ≠ '='))
  let attached :=
    match text.dropWhile (· ≠ '=') with
    | [] => none
    | _ :: value => some (String.ofList value)
  match level.options.find? fun option => option.long == name with
  | some option => scan.option option attached
  | none =>
      if name = "help" then
        if attached.isSome then .error .tooManyValues else scan.help
      else .error .unknownArgument

/-- Reads a short option, with an attached value or without. -/
def short (level : Level) (scan : Scan) (letter : Char) (rest : List Char) :
    Except ArgumentError Scan :=
  match level.options.find? fun option => option.short == some letter with
  | some option =>
      scan.option option
        (match rest with
        | [] => none
        | '=' :: value => some (String.ofList value)
        | value => some (String.ofList value))
  | none => if letter = 'h' then scan.help else .error .unknownArgument

/-- The error about an argument that is no option, no value and no subcommand. -/
def unexpected (level : Level) : ArgumentError :=
  if level.subcommands.isEmpty then .unknownArgument else .invalidSubcommand

/-- The error about an argument after `--`, where no subcommand may stand. -/
def unexpectedAfterEscape (level : Level) (argument : String) : ArgumentError :=
  if argument ∈ level.subcommands then .unknownArgument else level.unexpected

/-- Goes through arguments up to their end or a subcommand, which is returned with
the arguments after it. -/
def scan (level : Level) (state : Scan) :
    List String → Except ArgumentError (Scan × Option (String × List String))
  | [] => .ok (state, none)
  | argument :: rest =>
      match state.awaiting? with
      | some ⟨long, short, .integer⟩ =>
          level.scan (state.value ⟨long, short, .integer⟩ argument) rest
      | awaiting =>
          if awaiting.isNone ∧ argument ∈ level.subcommands then
            .ok (state, some (argument, rest))
          else
            match argument.toList with
            | ['-', '-'] =>
                match rest with
                | [] => .ok (state, none)
                | next :: _ => .error (level.unexpectedAfterEscape next)
            | '-' :: '-' :: text => do level.scan (← level.long state text) rest
            | '-' :: letter :: text => do level.scan (← level.short state letter text) rest
            | _ =>
                match awaiting with
                | some option => level.scan (state.value option argument) rest
                | none => .error level.unexpected

end Level

/-- What help is asked for: the program, or one of its subcommands. -/
def helpOn : List String → ArgumentError
  | [] => .displayHelp
  | [topic] => if topic ∈ programLevel.subcommands then .displayHelp else .invalidSubcommand
  | _ => .invalidSubcommand

/-- Goes through the arguments of a subcommand. -/
def subcommand (level : Level) (arguments : List String) :
    Except ArgumentError (List (String × String)) := do
  let (state, _) ← level.scan .start arguments
  return (← state.settle).given

/-- The command of a subcommand. -/
def command : String → List String → Except ArgumentError Command
  | "sync", arguments => do
      let given ← subcommand syncLevel arguments
      return .sync ((given.lookup "start-index").bind integer?)
        ((given.lookup "end-index").bind integer?)
  | "counters", arguments => do
      let _ ← subcommand countersLevel arguments
      return .counters
  | _, arguments => .error (helpOn arguments)

/-- Reads the arguments of the program, the first of which is its name. -/
def parse (arguments : List String) : Except ArgumentError Arguments := do
  let (state, found) ← programLevel.scan .start (arguments.drop 1)
  let asked ←
    match found with
    | none => pure none
    | some (name, rest) => do pure (some (← command name rest))
  let given := (← state.settle).given
  let standard : Arguments := {}
  return {
    config := (given.lookup "config").getD standard.config
    dataDirectory := given.lookup "data-dir"
    command := asked }

end ChainFollower.CommandLine
