/-!
# Tokens of TOML documents

A document is split into tokens before it is read.  Comments leave no token, and
two-character line ends count as one newline everywhere, also inside strings.
-/

namespace ChainFollower.Settings.Toml

/-- A token. -/
inductive Token where
  | blank (text : String)
  | newline
  | equals
  | period
  | comma
  | colon
  | plus
  | leftBrace
  | rightBrace
  | leftBracket
  | rightBracket
  /-- A run of letters, digits, hyphens and underscores. -/
  | word (text : String)
  /-- A string, and whether it is written over several lines. -/
  | string (text : String) (multiline : Bool)
  deriving DecidableEq, Repr

namespace Token

/-- The characters that are tokens of their own. -/
def ofChar? : Char → Option Token
  | '\n' => some .newline
  | '=' => some .equals
  | '.' => some .period
  | ',' => some .comma
  | ':' => some .colon
  | '+' => some .plus
  | '\x7b' => some .leftBrace
  | '\x7d' => some .rightBrace
  | '[' => some .leftBracket
  | ']' => some .rightBracket
  | _ => none

/-- The text of a token that may be part of a date or a time. -/
def dateText : Token → String
  | .blank text => text
  | .period => "."
  | .colon => ":"
  | .plus => "+"
  | .word text => text
  | _ => ""

end Token

/-! ## Characters -/

/-- Whether a character separates tokens on a line. -/
def isBlank (char : Char) : Bool :=
  char == ' ' || char == '\t'

/-- Whether a character may be in a word. -/
def isWordChar (char : Char) : Bool :=
  char.isAlphanum || char == '-' || char == '_'

/-- Whether a character may be in a comment. -/
def isCommentChar (char : Char) : Bool :=
  char == '\t' || 0x20 ≤ char.toNat

/-- Whether a character may be in a string as it is. -/
def isStringChar (char : Char) : Bool :=
  isCommentChar char && char.toNat != 0x7F

/-- The characters with two-character line ends folded into newlines. -/
def foldLines : List Char → List Char
  | '\r' :: '\n' :: rest => '\n' :: foldLines rest
  | char :: rest => char :: foldLines rest
  | [] => []

/-! ## Strings -/

/-- The value of a hexadecimal digit. -/
def hexDigit? (char : Char) : Option Nat :=
  if '0' ≤ char ∧ char ≤ '9' then some (char.toNat - 48)
  else if 'a' ≤ char ∧ char ≤ 'f' then some (char.toNat - 87)
  else if 'A' ≤ char ∧ char ≤ 'F' then some (char.toNat - 55)
  else none

/-- Reads the character that so many hexadecimal digits denote. -/
def codePoint? (digits : Nat) (text : List Char) : Option (Char × List Char) := do
  if text.length < digits then none
  let values ← (text.take digits).mapM hexDigit?
  let code := values.foldl (fun code value => code * 16 + value) 0
  if code.isValidChar then some (Char.ofNat code, text.drop digits) else none

/-- What an escape stands for when it is a single letter. -/
def escaped? : Char → Option Char
  | '"' => some '"'
  | '\\' => some '\\'
  | 'b' => some '\x08'
  | 'f' => some '\x0c'
  | 'n' => some '\n'
  | 'r' => some '\r'
  | 't' => some '\t'
  | _ => none

/-- Reads an escape after its backslash: the characters it stands for.  Over several
lines, an escaped line end stands for nothing, together with all blanks after it. -/
def escape? (multiline : Bool) : List Char → Option (List Char × List Char)
  | [] => none
  | char :: rest =>
      if char == 'u' || char == 'U' then do
        let (code, rest) ← codePoint? (if char == 'u' then 4 else 8) rest
        return ([code], rest)
      else if multiline && (isBlank char || char == '\n') then
        let tail := (char :: rest).dropWhile isBlank
        if tail.head? == some '\n' then
          some ([], tail.dropWhile fun char => isBlank char || char == '\n')
        else none
      else (escaped? char).map fun char => ([char], rest)

/-- Reads the rest of a string.  Over several lines it ends at three quotes in a row,
and up to two quotes more belong to it.  `fuel` bounds the steps. -/
def stringRest? (quote : Char) (multiline : Bool) : (fuel : Nat) → List Char →
    Option (List Char × List Char)
  | 0, _ => none
  | _, [] => none
  | fuel + 1, char :: rest =>
      let push (chars : List Char) (rest : List Char) := do
        let (more, rest) ← stringRest? quote multiline fuel rest
        some (chars ++ more, rest)
      if char == quote then
        if multiline then
          let quotes := (rest.takeWhile (· == quote)).length
          if 2 ≤ quotes then
            some (List.replicate (min (quotes - 2) 2) quote, rest.drop (min quotes 4))
          else push (List.replicate (quotes + 1) quote) (rest.drop quotes)
        else some ([], rest)
      else if char == '\\' && quote == '"' then do
        let (chars, rest) ← escape? multiline rest
        push chars rest
      else if isStringChar char || (multiline && char == '\n') then push [char] rest
      else none

/-- Reads a string after its first quote.  A newline right after three opening quotes
does not belong to it. -/
def string? (quote : Char) (text : List Char) : Option (Token × List Char) :=
  let finish (multiline : Bool) (text : List Char) := do
    let (chars, rest) ← stringRest? quote multiline (text.length + 1) text
    some (Token.string (String.ofList chars) multiline, rest)
  match text with
  | first :: second :: rest =>
      if first == quote && second == quote then
        finish true (if rest.head? == some '\n' then rest.drop 1 else rest)
      else if first == quote then some (.string "" false, second :: rest)
      else finish false text
  | [only] => if only == quote then some (.string "" false, []) else none
  | [] => none

/-! ## Documents -/

/-- The tokens of a text without two-character line ends.  Every step takes at least
one character, so `fuel` of one more than the length suffices. -/
def tokens? : (fuel : Nat) → List Char → Option (List Token)
  | 0, _ => none
  | _, [] => some []
  | fuel + 1, char :: rest =>
      match Token.ofChar? char with
      | some token => do return token :: (← tokens? fuel rest)
      | none =>
          if isBlank char then do
            let run := char :: rest.takeWhile isBlank
            return .blank (String.ofList run) :: (← tokens? fuel (rest.dropWhile isBlank))
          else if char == '#' then tokens? fuel (rest.dropWhile isCommentChar)
          else if char == '\'' || char == '"' then do
            let (token, rest) ← string? char rest
            return token :: (← tokens? fuel rest)
          else if isWordChar char then do
            let run := char :: rest.takeWhile isWordChar
            return .word (String.ofList run) :: (← tokens? fuel (rest.dropWhile isWordChar))
          else none

/-- The tokens of a document, which may begin with a byte order mark. -/
def tokenize? (text : String) : Option (List Token) :=
  let chars := foldLines text.toList
  let chars := if chars.head? == some '\uFEFF' then chars.drop 1 else chars
  tokens? (chars.length + 1) chars

end ChainFollower.Settings.Toml
