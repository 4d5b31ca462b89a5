import ChainFollower.Config.Reading
import ChainFollower.Json.Form

/-!
# Configurations in JSON texts

A JSON text is taken literally: numbers have to be integers of the right size,
nothing is converted.
-/

namespace ChainFollower.Config

open Json (Written)

/-- A part of a JSON text, and how deep it may still nest. -/
structure Literal where
  room : Nat
  written : Written

namespace Literal

/-- The name of an alternative: a string, or an object whose only field has that
name and the value null. -/
def choice? (value : Literal) : Option String :=
  match value.written with
  | .string text => text
  | .object [(name, .null)] => if value.room = 0 then none else name
  | _ => none

/-- What is given for each named field, one level further inside. -/
def record? (names : List String) (value : Literal) : Option (List (Option Literal)) :=
  value.written.record? names
    (fun room slots => some (slots.map fun slot => slot.map (⟨room, ·⟩))) value.room

instance : Source Literal where
  isNull value := value.written matches .null
  text? value := value.written.text?
  boolean? value :=
    match value.written with
    | .boolean flag => some flag
    | _ => none
  signed? value := Json.Form.read? value.room value.written
  unsigned? value :=
    (value.written.integerWithin? 0 18446744073709551615).map fun n => .ofNat n.toNat
  unsigned32? value := (value.written.integerWithin? 0 4294967295).map fun n => .ofNat n.toNat
  list? value := Written.list? (fun room item => some ⟨room, item⟩) value.room value.written
  choice? := choice?
  record? := record?

/-- Reads what a whole JSON text says with one of the readers of configurations. -/
def parse? (read : Literal → Option α) (bytes : Bytes) : Option α := do
  read ⟨Json.nestingLimit, ← Written.parse? bytes⟩

end Literal

/-- The JSON text of how to reach the remote node. -/
def encodeFetcher (config : FetcherConfig) : Bytes :=
  Json.writeObject (Json.field "url" config.url ++
    [("timeout_secs", Json.writeInteger config.retry.timeoutSeconds.toNat),
      ("max_retries", Json.writeInteger config.retry.maxRetries.toNat),
      ("initial_backoff_ms", Json.writeInteger config.retry.initialBackoffMillis.toNat),
      ("max_backoff_ms", Json.writeInteger config.retry.maxBackoffMillis.toNat)])

end ChainFollower.Config
