import ChainFollower.Sync.Engine

/-!
# Requests in flight

A network takes requests for blocks before the answers to earlier ones are taken up.
`Network.surroundings` is what a run meets over it: requests go out in the order of the
indices, as many as may be in flight and as time allows, and their answers are taken up in
that order.  What is still in flight when a round is over is dropped.
-/

namespace ChainFollower.Sync

/-- A request to the remote node. -/
inductive Query where
  | status
  | block (index : Int64)
  deriving DecidableEq, Repr

/-- The remote node behind a network, the cancellation token and the passage of time, over a
state. -/
structure Network (ε : Type) where
  cancelled : ε → Bool
  status : ε → Awaited NetworkStatus × ε
  /-- Sends the request for the block at an index. -/
  send : Int64 → ε → ε
  /-- How many more requests there is time to send before the next answer is taken up. -/
  lead : ε → Nat
  /-- Takes up the answer to the request for the block at an index. -/
  receive : Int64 → ε → Awaited (Option Block) × ε
  /-- Waits for a time, or until cancelled. -/
  rest : Duration → ε → ε

/-- A state of a network, with the requests that were sent. -/
structure Flight (ε : Type) where
  outside : ε
  /-- All requests, in the order in which they were sent. -/
  queries : List Query
  /-- How many requests for blocks of the round are in flight. -/
  aloft : Nat

/-- The requests stay as they are while the outside goes on. -/
def Flight.after (change : ε → ε) (flight : Flight ε) : Flight ε :=
  { flight with outside := change flight.outside }

namespace Network

variable {ε : Type}

/-- Sends a request for a block. -/
def dispatch (network : Network ε) (index : Int64) (flight : Flight ε) : Flight ε :=
  ⟨network.send index flight.outside, flight.queries ++ [.block index], flight.aloft + 1⟩

/-- Sends requests for the blocks at so many indices from the first one on. -/
def launch (network : Network ε) : (count : Nat) → (first : Int64) → Flight ε → Flight ε
  | 0, _, flight => flight
  | count + 1, first, flight => network.launch count (first + 1) (network.dispatch first flight)

/-- How many requests are in flight when the next answer is taken up: the one for it and those
that may go out, and have the time to go out, ahead of it. -/
def reach (network : Network ε) (ahead : Nat) (flight : Flight ε) : Nat :=
  min (ahead + 1) (max flight.aloft 1 + network.lead flight.outside)

/-- The network as a run meets it. -/
def surroundings (network : Network ε) : Surroundings (Flight ε) where
  cancelled flight := network.cancelled flight.outside
  status flight :=
    let (answer, outside) := network.status flight.outside
    (answer, ⟨outside, flight.queries ++ [.status], 0⟩)
  block index ahead flight :=
    let flight := network.launch (network.reach ahead flight - flight.aloft)
      (index + Int64.ofNat flight.aloft) flight
    let (answer, outside) := network.receive index flight.outside
    (answer, { flight with outside, aloft := flight.aloft - 1 })
  rest span := Flight.after (network.rest span)

end Network

end ChainFollower.Sync
