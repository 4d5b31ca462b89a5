import ChainFollower.Decimal.Integer
import ChainFollower.Settings.Setting
import ChainFollower.Settings.Toml.Token

/-!
# Numbers in TOML documents

Digits may be grouped by single underscores between them.  A decimal integer has no
leading zeros; digits after a point or in an exponent may have them.
-/

namespace ChainFollower.Settings.Toml

open Decimal (Binary64)

/-- Whether a character is a digit of a base up to sixteen. -/
def isDigitOf (base : Nat) (char : Char) : Bool :=
  match hexDigit? char with
  | some value => value < base
  | none => false

/-- What the next digit may follow. -/
inductive DigitState where
  | start
  /-- A zero that no digit may follow. -/
  | leadingZero
  | digit
  | underscore (afterLeadingZero : Bool)
  deriving DecidableEq, Repr

/-- Splits a text after its longest initial run of grouped digits, without the
underscores; none when a group is not closed by a digit. -/
def digitRun? (base : Nat) (leadingZeros : Bool) : DigitState → List Char →
    Option (List Char × List Char)
  | state, [] =>
      match state with
      | .start | .underscore _ => none
      | .leadingZero | .digit => some ([], [])
  | state, char :: rest =>
      let next (state : DigitState) := do
        let (digits, rest) ← digitRun? base leadingZeros state rest
        some (char :: digits, rest)
      if isDigitOf base char then
        match state with
        | .start => next (if char == '0' && !leadingZeros then .leadingZero else .digit)
        | .leadingZero | .underscore true => none
        | .digit | .underscore false => next .digit
      else
        match state with
        | .start | .underscore _ => none
        | .leadingZero | .digit =>
            if char == '_' then
              digitRun? base leadingZeros (.underscore (state == .leadingZero)) rest
            else some ([], char :: rest)

/-- Splits a text after its sign, if it has one. -/
def splitSign : List Char → Bool × List Char
  | '-' :: rest => (true, rest)
  | '+' :: rest => (false, rest)
  | rest => (false, rest)

/-- The number that digits of a base write. -/
def ofDigits (base : Nat) (digits : List Char) : Nat :=
  digits.foldl (fun value digit => value * base + (hexDigit? digit).getD 0) 0

/-- An integer that a whole text writes in a base, if it has 64 bits. -/
def integer? (base : Nat) (text : List Char) : Option Setting := do
  let (negative, text) := if base = 10 then splitSign text else (false, text)
  let (digits, rest) ← digitRun? base (base ≠ 10) .start text
  if !rest.isEmpty then none
  let size : Int := ofDigits base digits
  let value ← Decimal.word? (if negative then -size else size)
  return .integer value

/-- A finite number by its digits before and after the point and its exponent. -/
def finite? (negative : Bool) (whole fraction : List Char) (exponent : Int) : Option Setting := do
  let coefficient := ofDigits 10 (whole ++ fraction)
  let power := exponent - fraction.length
  -- the size lies between `10 ^ (top - 1)` and `10 ^ top`
  let top := (Nat.repr coefficient).length + power
  let number ←
    if coefficient = 0 ∨ top < -400 then some (Binary64.zero negative)
    else if 400 < top then none
    else Binary64.ofDecimal? negative coefficient power
  return .floating (.finite number)

/-- The exponent that a whole text writes. -/
def exponent? (signed : Bool) (text : List Char) : Option Int := do
  let (negative, text) := if signed then splitSign text else (false, text)
  let (digits, rest) ← digitRun? 10 true .start text
  if !rest.isEmpty then none
  let size : Int := ofDigits 10 digits
  return if negative then -size else size

/-- Reads a number with a point or an exponent: its first word, and the word after
the point if there is one.  An exponent with a plus sign takes two tokens more. -/
def floating? (text : List Char) (afterPoint : Option (List Char)) (tokens : List Token) :
    Option (Setting × List Token) := do
  let (negative, text) := splitSign text
  let (whole, rest) ← digitRun? 10 false .start text
  let (fraction, rest) ←
    match afterPoint with
    | none => some ([], rest)
    | some after => if rest.isEmpty then digitRun? 10 true .start after else none
  match rest with
  | [] => return (← finite? negative whole fraction 0, tokens)
  | letter :: exponent =>
      if letter != 'e' && letter != 'E' then none
      else if exponent.isEmpty then
        let tokens := if tokens.head? == some .plus then tokens.drop 1 else tokens
        match tokens with
        | .word text :: tokens =>
            return (← finite? negative whole fraction (← exponent? false text.toList), tokens)
        | _ => none
      else return (← finite? negative whole fraction (← exponent? true exponent), tokens)

/-- The special numbers. -/
def special? (text : String) : Option Floating :=
  match text with
  | "inf" => some (.infinite false)
  | "-inf" => some (.infinite true)
  | "nan" | "-nan" => some .undefined
  | _ => none

/-- Reads a number that begins with this word. -/
def number? (text : String) (tokens : List Token) : Option (Setting × List Token) :=
  match text.toList with
  | '0' :: 'x' :: digits => (integer? 16 digits).map (·, tokens)
  | '0' :: 'o' :: digits => (integer? 8 digits).map (·, tokens)
  | '0' :: 'b' :: digits => (integer? 2 digits).map (·, tokens)
  | chars =>
      if chars.contains 'e' || chars.contains 'E' then floating? chars none tokens
      else
        match tokens with
        | .period :: .word after :: tokens => floating? chars (some after.toList) tokens
        | .period :: _ => none
        | _ =>
            match special? text with
            | some value => some (.floating value, tokens)
            | none => (integer? 10 chars).map (·, tokens)

end ChainFollower.Settings.Toml
