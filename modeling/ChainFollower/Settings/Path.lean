import ChainFollower.Decimal.Integer
import ChainFollower.Settings.Setting

/-!
# Paths to settings

A path names a setting inside a tree: names between points, and places of list
items in brackets, as in `logging.outputs[0]`.
-/

namespace ChainFollower.Settings

open Setting (Step)

namespace Path

/-- Whether a character may be in a name. -/
def isNameChar (char : Char) : Bool :=
  char.isAlphanum || char == '_' || char == '-'

/-- Whether a character may surround a place. -/
def isBlank (char : Char) : Bool :=
  char == ' ' || char == '\t'

/-- Reads a name, which has at least one character. -/
def name? (text : List Char) : Option (String × List Char) :=
  match text.takeWhile isNameChar with
  | [] => none
  | name => some (String.ofList name, text.dropWhile isNameChar)

/-- Reads one step after the first name. -/
def step? : List Char → Option (Step × List Char)
  | '.' :: text => do
      let (name, rest) ← name? text
      some (.field name, rest)
  | '[' :: text => do
      let inner := text.dropWhile isBlank
      let isPlaceChar := fun char : Char => char == '-' || char.isDigit
      let place ← Decimal.word? (← Decimal.integer? (inner.takeWhile isPlaceChar))
      match (inner.dropWhile isPlaceChar).dropWhile isBlank with
      | ']' :: rest => some (.item place.toInt, rest)
      | _ => none
  | _ => none

/-- Reads steps to the end of the text, each of at least one character. -/
def steps? : (fuel : Nat) → List Char → Option (List Step)
  | _, [] => some []
  | 0, _ => none
  | fuel + 1, text => do
      let (step, rest) ← step? text
      return step :: (← steps? fuel rest)

end Path

/-- The path that a text writes; a text that is no path is a single name. -/
def pathOf (text : String) : List Step :=
  let steps := do
    let (name, rest) ← Path.name? text.toList
    return Step.field name :: (← Path.steps? rest.length rest)
  steps.getD [.field text]

namespace Setting

/-- Lays a setting over what is found along a written path. -/
def putAt (setting : Setting) (path : String) (target : Setting) : Setting :=
  place (pathOf path) setting (some target)

/-- Lays named settings over a tree, their names taken as paths. -/
def putAll (named : List (String × Setting)) (target : Setting) : Setting :=
  named.foldl (fun target entry => entry.2.putAt entry.1 target) target

end Setting

end ChainFollower.Settings
