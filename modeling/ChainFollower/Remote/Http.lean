import ChainFollower.Decimal.Integer
import ChainFollower.Remote.Message

/-!
# Requests and replies on a connection

How a request is written to a connection that is closed after the reply, and how
the reply is read from everything that came back.
-/

namespace ChainFollower.Remote.Http

/-- Where a request goes. -/
structure Address where
  host : String
  /-- The number of the service at the host. -/
  service : UInt16
  /-- The path at the host. -/
  target : String
  deriving DecidableEq, Repr

/-- The number of the service unless the address names one. -/
def defaultService : UInt16 := 80

/-- The parts of an address without encryption. -/
def Address.parse? (url : String) : Option Address := do
  let start := "http://".toList
  if !start.isPrefixOf url.toList then none
  let rest := url.toList.drop start.length
  let isTarget := fun char : Char => char == '/' || char == '?'
  let authority := rest.takeWhile fun char => !isTarget char
  let target := rest.dropWhile fun char => !isTarget char
  let host := authority.takeWhile (· ≠ ':')
  let service ←
    match authority.dropWhile (· ≠ ':') with
    | [] => some defaultService
    | _ :: digits => do
        let number ← Decimal.natural? digits
        if number < 65536 then some (.ofNat number) else none
  if host.isEmpty then none
  return ⟨.ofList host, service,
    .ofList (if target.head? = some '/' then target else '/' :: target)⟩

/-- The bytes of a request. -/
def requestBytes (address : Address) (body : Bytes) : Bytes :=
  let lines := ["POST " ++ address.target ++ " HTTP/1.1",
    "host: " ++ address.host ++ ":" ++ toString address.service,
    "content-type: " ++ Request.contentType, "content-length: " ++ toString body.length,
    "connection: close", "", ""]
  Bytes.ofString (String.intercalate "\r\n" lines) ++ body

/-! ## Replies -/

/-- A line without its end, and the bytes after it. -/
def splitLine : Bytes → Option (Bytes × Bytes)
  | 13 :: 10 :: rest => some ([], rest)
  | byte :: rest => (splitLine rest).map fun (line, rest) => (byte :: line, rest)
  | [] => none

/-- The lines before an empty line, and the bytes after it.  Every line takes some
bytes, so `fuel` as large as their number suffices. -/
def splitHead : (fuel : Nat) → Bytes → Option (List String × Bytes)
  | 0, _ => none
  | fuel + 1, bytes => do
      let (line, rest) ← splitLine bytes
      if line.isEmpty then return ([], rest)
      let (lines, rest) ← splitHead fuel rest
      return (Bytes.toStringLossy line :: lines, rest)

/-- The value of a header, whose name is given in lowercase. -/
def header? (name : String) (lines : List String) : Option String :=
  lines.findSome? fun line =>
    let written := String.ofList (line.toList.takeWhile (· ≠ ':'))
    if written.toLower = name then
      some (String.ofList ((line.toList.dropWhile (· ≠ ':')).drop 1)).trimAscii.toString
    else none

/-- The number that hexadecimal digits write, up to the first other character. -/
def chunkSize (text : String) : Nat :=
  let digits := (text.toLower.toList.takeWhile fun char => Bytes.hexDigits.contains char)
  digits.foldl (fun size digit => size * 16 + Bytes.hexDigits.idxOf digit) 0

/-- A body that is sent in chunks. -/
def chunks? : (fuel : Nat) → Bytes → Option Bytes
  | 0, _ => none
  | fuel + 1, bytes => do
      let (line, rest) ← splitLine bytes
      match chunkSize (Bytes.toStringLossy line) with
      | 0 => some []
      | size =>
          if rest.length < size then none
          else return rest.take size ++ (← chunks? fuel (rest.drop (size + 2)))

/-- The status that a status line reports. -/
def status? (line : String) : Option Nat :=
  match line.splitOn " " with
  | _ :: status :: _ => Decimal.natural? status.toList
  | _ => none

/-- The body that comes after the header lines. -/
def body? (lines : List String) (rest : Bytes) : Option Bytes :=
  if (header? "transfer-encoding" lines).map String.toLower = some "chunked" then
    chunks? (rest.length + 1) rest
  else
    match header? "content-length" lines with
    | none => some rest
    | some length => do
        let length ← Decimal.natural? length.toList
        if rest.length < length then none else some (rest.take length)

/-- The reply that came back on a connection.  It is an answer as soon as its head is
complete; its body may break off. -/
def reply (bytes : Bytes) : Reply :=
  let head : Option (Nat × List String × Bytes) := do
    let (lines, rest) ← splitHead bytes.length bytes
    return (← status? (← lines.head?), lines.drop 1, rest)
  match head with
  | none => .failed "connection closed before message completed"
  | some (status, lines, rest) =>
      .received status (((body? lines rest).map Body.ofUtf8).getD .lost)

end ChainFollower.Remote.Http
