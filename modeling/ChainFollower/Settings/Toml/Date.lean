import ChainFollower.Settings.Toml.Token

/-!
# Dates and times in TOML documents

A date, a time, or both with an optional offset.  A date becomes a text in a fixed
layout: a capital letter before the time, and a fraction without trailing zeros.
-/

namespace ChainFollower.Settings.Toml

/-! ## The text of a date -/

/-- Takes a word of a date. -/
def takeWord : List Token → Option (String × List Token)
  | .word text :: rest => some (text, rest)
  | _ => none

/-- Takes a word after a certain token, if that token is next. -/
def takeAfter? (token : Token) : List Token → Option (String × List Token)
  | next :: rest =>
      if next = token then do
        let (text, rest) ← takeWord rest
        some (token.dateText ++ text, rest)
      else some ("", next :: rest)
  | [] => some ("", [])

/-- Takes the minutes and seconds of a time, with a fraction and an offset. -/
def takeMinutes (tokens : List Token) : Option (String × List Token) := do
  let (minutes, tokens) ← takeWord tokens
  let .colon :: tokens := tokens | none
  let (seconds, tokens) ← takeWord tokens
  let (fraction, tokens) ← takeAfter? .period tokens
  let (offsetHours, tokens) ← takeAfter? .plus tokens
  let (offsetMinutes, tokens) ← takeAfter? .colon tokens
  some (minutes ++ ":" ++ seconds ++ fraction ++ offsetHours ++ offsetMinutes, tokens)

/-- Takes the text of a date or a time that begins with this word.  A date may have
its time after a single space. -/
def takeDate (first : String) : List Token → Option (String × List Token)
  | .colon :: tokens => do
      let (rest, tokens) ← takeMinutes tokens
      some (first ++ ":" ++ rest, tokens)
  | .blank " " :: .word hour :: .colon :: tokens => do
      let (rest, tokens) ← takeMinutes tokens
      some (first ++ " " ++ hour ++ ":" ++ rest, tokens)
  | .blank " " :: .word hour :: tokens => some (first ++ " " ++ hour, tokens)
  | tokens => some (first, tokens)

/-! ## What it says -/

/-- Takes a number of so many digits. -/
def takeDigits (count : Nat) (text : List Char) : Option (Nat × List Char) :=
  let digits := text.take count
  if digits.length = count ∧ digits.all Char.isDigit then
    some (digits.foldl (fun value digit => value * 10 + (digit.toNat - 48)) 0, text.drop count)
  else none

/-- Takes a character. -/
def takeChar (char : Char) : List Char → Option (List Char)
  | next :: rest => if next = char then some rest else none
  | [] => none

/-- A number with so many digits at least. -/
def padded (width number : Nat) : String :=
  let digits := Nat.repr number
  String.ofList (List.replicate (width - digits.length) '0') ++ digits

/-- Reads a date and returns it in its layout. -/
def date? (text : List Char) : Option (String × List Char) := do
  let (year, text) ← takeDigits 4 text
  let text ← takeChar '-' text
  let (month, text) ← takeDigits 2 text
  let text ← takeChar '-' text
  let (day, text) ← takeDigits 2 text
  if month < 1 ∨ 12 < month ∨ day < 1 ∨ 31 < day then none
  else some (padded 4 year ++ "-" ++ padded 2 month ++ "-" ++ padded 2 day, text)

/-- Reads a fraction of a second, of which nine digits count. -/
def fraction? : List Char → Option (String × List Char)
  | '.' :: text =>
      match text.takeWhile Char.isDigit with
      | [] => none
      | digits =>
          let shown := ((digits.take 9).reverse.dropWhile (· == '0')).reverse
          some (if shown.isEmpty then "" else "." ++ String.ofList shown,
            text.dropWhile Char.isDigit)
  | text => some ("", text)

/-- Reads a time and returns it in its layout. -/
def time? (text : List Char) : Option (String × List Char) := do
  let (hour, text) ← takeDigits 2 text
  let text ← takeChar ':' text
  let (minute, text) ← takeDigits 2 text
  let text ← takeChar ':' text
  let (second, text) ← takeDigits 2 text
  let (fraction, text) ← fraction? text
  if 24 < hour ∨ 59 < minute ∨ 59 < second then none
  else some (padded 2 hour ++ ":" ++ padded 2 minute ++ ":" ++ padded 2 second ++ fraction, text)

/-- Reads an offset and returns it in its layout.  Zero hours have no sign of their
own and are shown with a plus. -/
def offset? : List Char → Option (String × List Char)
  | [] => some ("", [])
  | sign :: text =>
      if sign == 'Z' || sign == 'z' then some ("Z", text)
      else if sign == '+' || sign == '-' then do
        let (hours, text) ← takeDigits 2 text
        let text ← takeChar ':' text
        let (minutes, text) ← takeDigits 2 text
        let shown := if sign == '-' && hours != 0 then "-" else "+"
        some (shown ++ padded 2 hours ++ ":" ++ padded 2 minutes, text)
      else none

/-- The layout of a text that is a date, a time, or a date with a time and possibly
an offset. -/
def dateLayout? (text : String) : Option String :=
  let chars := text.toList
  let finish (shown : String) (rest : List Char) := if rest.isEmpty then some shown else none
  if chars[2]? == some ':' then do
    let (time, rest) ← time? chars
    finish time rest
  else do
    let (date, rest) ← date? chars
    match rest with
    | separator :: timed =>
        if separator == 'T' || separator == 't' || separator == ' ' then do
          let (time, rest) ← time? timed
          let (offset, rest) ← offset? rest
          finish (date ++ "T" ++ time ++ offset) rest
        else none
    | [] => some date

end ChainFollower.Settings.Toml
