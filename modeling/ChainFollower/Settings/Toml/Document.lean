import ChainFollower.Settings.Toml.Date
import ChainFollower.Settings.Toml.Number

/-!
# TOML documents

A document is a list of sections, each with a header and fields.  A table may be
opened by one header, and fields and tables may not be defined twice.
-/

namespace ChainFollower.Settings.Toml

/-! ## Tables while they are built -/

/-- How a table came to be. -/
inductive Origin where
  /-- By a dotted field name: more such names may add to it. -/
  | dotted
  /-- As part of the header of another table: its own header may still follow. -/
  | implied
  /-- By its own header. -/
  | stated
  deriving DecidableEq, Repr

/-- A part of a document that may still grow. -/
inductive Draft where
  | value (setting : Setting)
  | table (origin : Origin) (fields : List (String × Draft))
  /-- Tables under repeated headers, the newest first. -/
  | tables (newest : List (String × Draft)) (older : List (List (String × Draft)))

/-- A field: its dotted name and its value. -/
abbrev Field := List String × Setting

mutual

/-- The setting that a finished part is. -/
def Draft.setting : Draft → Setting
  | .value setting => setting
  | .table _ fields => .table (settingsOf fields)
  | .tables newest older => .list (tablesOf older [.table (settingsOf newest)])

/-- The settings that finished fields are. -/
def settingsOf : List (String × Draft) → List (String × Setting)
  | [] => []
  | (name, draft) :: rest => Json.insertField name draft.setting (settingsOf rest)

/-- The settings that finished tables are, the newest given first, before others. -/
def tablesOf : List (List (String × Draft)) → List Setting → List Setting
  | [], later => later
  | fields :: older, later => tablesOf older (.table (settingsOf fields) :: later)

end

/-- Replaces the draft under a name, or adds it. -/
def putDraft (name : String) (draft : Draft) : List (String × Draft) → List (String × Draft)
  | [] => [(name, draft)]
  | (other, kept) :: rest =>
      if other = name then (name, draft) :: rest else (other, kept) :: putDraft name draft rest

/-- Adds a field to a table. -/
def addField : List String → Setting → List (String × Draft) → Option (List (String × Draft))
  | [], _, _ => none
  | [name], setting, fields =>
      match fields.lookup name with
      | none => some (putDraft name (.value setting) fields)
      | some _ => none
  | name :: rest, setting, fields =>
      match fields.lookup name with
      | none => do return putDraft name (.table .dotted (← addField rest setting [])) fields
      | some (.table .dotted inner) => do
          return putDraft name (.table .dotted (← addField rest setting inner)) fields
      | some _ => none

/-- Adds fields to a table in order. -/
def addFields (added : List Field) (fields : List (String × Draft)) :
    Option (List (String × Draft)) :=
  added.foldlM (fun fields field => addField field.1 field.2 fields) fields

/-- Adds a section: the table under a header gets fields.  Repeated headers each add
one table to a list. -/
def addSection (repeated : Bool) (body : List Field) : List String → List (String × Draft) →
    Option (List (String × Draft))
  | [], _ => none
  | [name], fields => do
      let draft ←
        match fields.lookup name, repeated with
        | none, false => do pure (.table .stated (← addFields body []))
        | none, true => do pure (.tables (← addFields body []) [])
        | some (.table .implied inner), false => do pure (.table .stated (← addFields body inner))
        | some (.tables newest older), true => do
            pure (.tables (← addFields body []) (newest :: older))
        | some _, _ => none
      return putDraft name draft fields
  | name :: rest, fields => do
      let draft ←
        match fields.lookup name with
        | none => do pure (.table .implied (← addSection repeated body rest []))
        | some (.table .dotted _) | some (.value _) => none
        | some (.table origin inner) => do
            pure (.table origin (← addSection repeated body rest inner))
        | some (.tables newest older) => do
            pure (.tables (← addSection repeated body rest newest) older)
      return putDraft name draft fields

/-- The table of fields alone. -/
def tableOf? (body : List Field) : Option Setting := do
  return (Draft.table .stated (← addFields body [])).setting

/-! ## Names -/

/-- Tokens after a blank, if there is one. -/
def skipBlank : List Token → List Token
  | .blank _ :: rest => rest
  | tokens => tokens

/-- Tokens after blanks and newlines. -/
def skipLines (tokens : List Token) : List Token :=
  tokens.dropWhile fun
    | .blank _ | .newline => true
    | _ => false

/-- Tokens after a certain token, which has to be next. -/
def skipToken (token : Token) : List Token → Option (List Token)
  | next :: rest => if next = token then some rest else none
  | [] => none

/-- Reads a name. -/
def name? : List Token → Option (String × List Token)
  | .word text :: rest => some (text, rest)
  | .string text false :: rest => some (text, rest)
  | _ => none

/-- Reads names separated by points, with blanks around them. -/
def dottedName? : (fuel : Nat) → List Token → Option (List String × List Token)
  | 0, _ => none
  | fuel + 1, tokens => do
      let (name, tokens) ← name? (skipBlank tokens)
      match skipBlank tokens with
      | .period :: tokens => do
          let (names, tokens) ← dottedName? fuel tokens
          return (name :: names, tokens)
      | tokens => return ([name], tokens)

/-! ## Values -/

/-- Whether a word has a negative exponent in it. -/
def hasNegativeExponent (text : List Char) : Bool :=
  (text.zip (text.drop 1)).any fun (letter, sign) =>
    (letter == 'e' || letter == 'E') && sign == '-'

/-- Whether a word begins a date rather than a number. -/
def isDateWord (text : List Char) : Bool :=
  text.contains 'T' || text.contains 't' ||
    ((text.drop 1).contains '-' && !hasNegativeExponent text)

/-- Reads a value that begins with a word. -/
def wordValue? (text : String) (tokens : List Token) : Option (Setting × List Token) :=
  let dated := do
    let (written, tokens) ← takeDate text tokens
    return (Setting.text (← dateLayout? written), tokens)
  match text with
  | "true" => some (.flag true, tokens)
  | "false" => some (.flag false, tokens)
  | "inf" | "nan" => number? text tokens
  | _ =>
      match text.toList with
      | first :: rest =>
          if !(first == '-' || first.isDigit) then none
          else if isDateWord (first :: rest) || tokens.head? == some .colon then dated
          else number? text tokens
      | [] => none

mutual

/-- Reads a value. -/
def value? : (fuel : Nat) → List Token → Option (Setting × List Token)
  | 0, _ => none
  | fuel + 1, tokens =>
      match tokens with
      | .string text _ :: rest => some (.text text, rest)
      | .word text :: rest => wordValue? text rest
      | .plus :: .word text :: rest => number? text rest
      | .leftBrace :: rest =>
          match skipBlank rest with
          | .rightBrace :: rest => some (.empty, rest)
          | rest => do
              let (body, rest) ← inlineFields? fuel rest
              return (← tableOf? body, rest)
      | .leftBracket :: rest => do
          let (items, rest) ← items? fuel (skipLines rest)
          return (.list items, rest)
      | _ => none

/-- Reads the items of a list up to its end.  A comma may stand before the end. -/
def items? : (fuel : Nat) → List Token → Option (List Setting × List Token)
  | 0, _ => none
  | fuel + 1, tokens =>
      match tokens with
      | .rightBracket :: rest => some ([], rest)
      | tokens => do
          let (item, rest) ← value? fuel tokens
          match skipLines rest with
          | .comma :: rest => do
              let (items, rest) ← items? fuel (skipLines rest)
              return (item :: items, rest)
          | .rightBracket :: rest => return ([item], rest)
          | _ => none

/-- Reads the fields of a table on one line up to its end. -/
def inlineFields? : (fuel : Nat) → List Token → Option (List Field × List Token)
  | 0, _ => none
  | fuel + 1, tokens => do
      let (field, rest) ← field? fuel tokens
      match skipBlank rest with
      | .rightBrace :: rest => return ([field], rest)
      | .comma :: rest => do
          let (fields, rest) ← inlineFields? fuel (skipBlank rest)
          return (field :: fields, rest)
      | _ => none

/-- Reads a field: its name, an equals sign, and its value. -/
def field? : (fuel : Nat) → List Token → Option (Field × List Token)
  | 0, _ => none
  | fuel + 1, tokens => do
      let (names, rest) ← dottedName? tokens.length tokens
      let rest ← skipToken .equals rest
      let (setting, rest) ← value? fuel (skipBlank rest)
      return ((names, setting), rest)

end

/-- The fuel with which tokens can be read: no token takes more than two steps. -/
def fuelFor (tokens : List Token) : Nat :=
  2 * tokens.length + 2

/-! ## Sections -/

/-- The end of a line: a newline, or the end of the document. -/
def lineEnd? (tokens : List Token) : Option (List Token) :=
  match skipBlank tokens with
  | [] => some []
  | .newline :: rest => some rest
  | _ => none

/-- Reads a header after its first bracket: the names, whether it is repeated, and the
tokens of the next line. -/
def header? (tokens : List Token) : Option (List String × Bool × List Token) := do
  let (repeated, tokens) :=
    match tokens with
    | .leftBracket :: rest => (true, rest)
    | tokens => (false, tokens)
  let (names, tokens) ← dottedName? tokens.length tokens
  let tokens ← skipToken .rightBracket tokens
  let tokens ← if repeated then skipToken .rightBracket tokens else some tokens
  return (names, repeated, ← lineEnd? tokens)

/-- Reads fields up to the next header or the end of the document. -/
def body? : (fuel : Nat) → List Token → Option (List Field × List Token)
  | 0, _ => none
  | fuel + 1, tokens =>
      match skipLines tokens with
      | [] => some ([], [])
      | .leftBracket :: rest => some ([], .leftBracket :: rest)
      | tokens => do
          let (field, tokens) ← field? (fuelFor tokens) tokens
          let (fields, tokens) ← body? fuel (← lineEnd? tokens)
          return (field :: fields, tokens)

/-- Reads sections to the end of the document. -/
def sections? : (fuel : Nat) → List Token → List (String × Draft) →
    Option (List (String × Draft))
  | 0, _, _ => none
  | fuel + 1, tokens, fields =>
      match tokens with
      | [] => some fields
      | .leftBracket :: tokens => do
          let (names, repeated, tokens) ← header? tokens
          let (body, tokens) ← body? (fuelFor tokens) tokens
          sections? fuel tokens (← addSection repeated body names fields)
      | _ => none

/-- The table that a document describes. -/
def parse? (document : String) : Option Setting := do
  let tokens ← tokenize? document
  let (body, tokens) ← body? (fuelFor tokens) tokens
  let fields ← sections? (fuelFor tokens) tokens (← addFields body [])
  return (Draft.table .stated fields).setting

end ChainFollower.Settings.Toml
