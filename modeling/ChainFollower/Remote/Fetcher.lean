import ChainFollower.Config.Basic
import ChainFollower.Remote.Message

/-!
# Fetching from the remote node

A request is repeated, with waits in between, as long as repeating it may help
and retries are left.  `Fetcher.verdict` decides about one reply; `Fetcher.post`
repeats a request over a transport.
-/

namespace ChainFollower.Remote

/-! ## One reply -/

/-- What a reply amounts to. -/
inductive Outcome (α : Type) where
  | done (value : α)
  /-- A failure that a retry may get over. -/
  | retriable (error : FetchError)
  | fatal (error : FetchError)
  deriving DecidableEq, Repr

/-- Whether a status says that the request succeeded. -/
def isSuccess (status : Nat) : Bool :=
  200 ≤ status && status < 300

/-- Whether a status puts the failure on the node. -/
def isServerError (status : Nat) : Bool :=
  500 ≤ status && status < 600

/-- The status of a node that is asked too often. -/
def tooManyRequests : Nat := 429

/-- An outcome that depends on whether a retry may help. -/
def failing (mayRetry : Bool) (error : FetchError) : Outcome α :=
  if mayRetry then .retriable error else .fatal error

/-- What the failure with a status and the text of its body amounts to.  The node
may say itself that a retry helps; without its word, being asked too often is a
reason to try again later. -/
def failure (status : Nat) (text : String) : Outcome α :=
  match Json.decode? (α := NodeError) (Bytes.ofString text) with
  | some error =>
      failing (error.retriable || isServerError status)
        (.status status (error.message ++ " (code " ++ toString error.code ++ ")"))
  | none =>
      failing (isServerError status || status == tooManyRequests) (.status status text)

/-- What a reply amounts to, whose body on success is read by `decode`. -/
def Reply.outcome (decode : Bytes → Option α) : Reply → Outcome α
  | .failed reason => .retriable (.request reason)
  | .received status body =>
      if isSuccess status then
        match body.bytes.bind decode with
        | some value => .done value
        | none => .fatal (.invalidResponse body.flaw)
      else failure status body.text

/-! ## Retries -/

/-- What to do about a reply. -/
inductive Verdict (α : Type) where
  | settled (result : Except FetchError α)
  /-- Wait, and send the request again. -/
  | again (delay : Duration)

/-- Decides about the outcome of an attempt, counted from one.  A failure that a
retry may get over is final once no retries are left. -/
def Backoff.verdict (backoff : Backoff) (attempt : UInt32) : Outcome α → Verdict α
  | .done value => .settled (.ok value)
  | .fatal error => .settled (.error error)
  | .retriable error =>
      match backoff.delay? attempt with
      | some delay => .again delay
      | none => .settled (.error (.retriesExhausted attempt.toNat error.message))

/-! ## Requests -/

/-- How requests reach the remote node, over a state. -/
structure Transport (σ : Type) where
  send : Request → σ → Reply × σ
  /-- Waits for a time, or until the request is abandoned. -/
  rest : Duration → σ → σ
  /-- Whether the answer is no longer wanted. -/
  abandoned : σ → Bool

/-- Where requests go and how they are repeated. -/
structure Fetcher where
  /-- The address of the node, without slashes at its end. -/
  base : String
  backoff : Backoff

namespace Fetcher

/-- A text without slashes at its end. -/
def trimmed (url : String) : String :=
  String.ofList (url.toList.reverse.dropWhile (· == '/')).reverse

/-- The fetcher that a configuration describes. -/
def ofConfig (config : FetcherConfig) : Fetcher :=
  ⟨trimmed config.url, config.retry.backoff⟩

/-- The address of an endpoint. -/
def endpoint (fetcher : Fetcher) (path : String) : String :=
  fetcher.base ++ "/" ++ path

/-- The request for the status of the network. -/
def statusRequest (fetcher : Fetcher) (network : NetworkId) : Request :=
  ⟨fetcher.endpoint "network/status", Json.encode (StatusQuestion.mk network)⟩

/-- The request for a block. -/
def blockRequest (fetcher : Fetcher) (network : NetworkId) (block : BlockQuery) : Request :=
  ⟨fetcher.endpoint "block", Json.encode (BlockQuestion.mk network block)⟩

/-- Sends a request until it is settled or abandoned, as an attempt of the given
number.  At most `retries` more attempts follow. -/
def attempt (fetcher : Fetcher) (transport : Transport σ) (decode : Bytes → Option α)
    (request : Request) : (retries : Nat) → (number : UInt32) → σ → Awaited α × σ
  | retries, number, world =>
      let (reply, world) := transport.send request world
      match fetcher.backoff.verdict number (reply.outcome decode) with
      | .settled result => (some (result.mapError .fetch), world)
      | .again delay =>
          let world := transport.rest delay world
          match retries with
          | 0 => (none, world)
          | retries + 1 =>
              if transport.abandoned world then (none, world)
              else fetcher.attempt transport decode request retries (number + 1) world

/-- Sends a request, again and again if need be.  There is no answer when the
request is abandoned. -/
def post (fetcher : Fetcher) (transport : Transport σ) (decode : Bytes → Option α)
    (request : Request) (world : σ) : Awaited α × σ :=
  fetcher.attempt transport decode request fetcher.backoff.retries.toNat 1 world

/-- Asks for the status of the network. -/
def status (fetcher : Fetcher) (transport : Transport σ) (network : NetworkId) :
    σ → Awaited NetworkStatus × σ :=
  fetcher.post transport Json.decode? (fetcher.statusRequest network)

/-- Asks for a block; the node may omit it. -/
def block (fetcher : Fetcher) (transport : Transport σ) (network : NetworkId)
    (query : BlockQuery) : σ → Awaited (Option Block) × σ :=
  fetcher.post transport (fun body => (Json.decode? body).map BlockAnswer.block)
    (fetcher.blockRequest network query)

end Fetcher

end ChainFollower.Remote
