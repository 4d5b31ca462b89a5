import ChainFollower.Block.Form

/-!
# Messages to and from the remote node

Every request is a JSON text posted to an address; every answer has a status and
a body, if it comes at all.  What the client makes of the body comes with it.
-/

namespace ChainFollower.Remote

open Json

/-- A request: a JSON text posted to an address. -/
structure Request where
  url : String
  body : Bytes
  deriving DecidableEq, Repr

/-- What the body of every request is. -/
def Request.contentType : String := "application/json"

/-- The body of an answer, as the client reads it. -/
structure Body where
  /-- Its bytes, unless reading them fails. -/
  bytes : Option Bytes
  /-- Its text in the character set it comes in; empty if reading it fails. -/
  text : String
  /-- What the client says when it is not the value it was asked for. -/
  flaw : String
  deriving DecidableEq, Repr

/-- What comes of a request. -/
inductive Reply where
  /-- There is no answer. -/
  | failed (reason : String)
  | received (status : Nat) (body : Body)
  deriving DecidableEq, Repr

/-! ## UTF-8 bodies -/

/-- What the client of this library says of a body that is not the value it asked for. -/
def undecodable : String := "error decoding response body"

/-- The bytes of a byte order mark. -/
def byteOrderMark : Bytes := [0xEF, 0xBB, 0xBF]

/-- A body whose bytes are read as UTF-8.  A byte order mark is no part of its text, and
ill-formed parts are replaced. -/
def Body.ofUtf8 (bytes : Bytes) : Body where
  bytes := some bytes
  text := Bytes.toStringLossy (if bytes.startsWith byteOrderMark then bytes.drop 3 else bytes)
  flaw := undecodable

/-- A body that breaks off. -/
def Body.lost : Body := ⟨none, "", undecodable⟩

/-- An answer with a body in UTF-8. -/
def Reply.answered (status : Nat) (bytes : Bytes) : Reply :=
  .received status (.ofUtf8 bytes)

/-! ## Questions and answers -/

/-- A question about the network. -/
structure StatusQuestion where
  network : NetworkId

/-- A question about a block. -/
structure BlockQuestion where
  network : NetworkId
  block : BlockQuery

/-- The answer about a block, which may be omitted. -/
structure BlockAnswer where
  block : Option Block

/-- An error that the node reports. -/
structure NodeError where
  code : Int32
  message : String
  /-- Whether the same request may succeed later. -/
  retriable : Bool
  deriving DecidableEq, Repr

instance : Form StatusQuestion where
  write question := writeObject (field "network_identifier" question.network)
  read? := Written.record? ["network_identifier"] fun room slots =>
    match slots with
    | [network] => do some ⟨← required? room network⟩
    | _ => none

instance : Form BlockQuestion where
  write question :=
    writeObject (field "network_identifier" question.network ++
      field "block_identifier" question.block)
  read? := Written.record? ["network_identifier", "block_identifier"] fun room slots =>
    match slots with
    | [network, block] => do some ⟨← required? room network, ← required? room block⟩
    | _ => none

instance : Form BlockAnswer where
  write answer := writeObject (optionalField "block" answer.block)
  read? := Written.record? ["block"] fun room slots =>
    match slots with
    | [block] => do some ⟨← optional? room block⟩
    | _ => none

instance : Form Bool where
  write value := Bytes.ofString (if value then "true" else "false")
  read? _
    | .boolean value => some value
    | _ => none

instance : Form NodeError where
  write error :=
    writeObject (field "code" error.code ++ field "message" error.message ++
      field "retriable" error.retriable)
  read? := Written.record? ["code", "message", "retriable"] fun room slots =>
    match slots with
    | [code, message, retriable] => do
        some ⟨← required? room code, ← required? room message,
          ← defaulted? false room retriable⟩
    | _ => none

end ChainFollower.Remote
