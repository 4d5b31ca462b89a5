import ChainFollower.Sync.Engine
import ChainFollower.Sync.Ledger

/-!
# Prompted steps

A program that really talks to a remote node takes the engine's steps one at a
time: it looks at what the next step will ask for, gets the answer, and puts it
where the step finds it.
-/

namespace ChainFollower.Sync

/-- What a step will ask for. -/
inductive Prompt where
  | nothing
  | status
  | block (index : Int64)
  deriving DecidableEq, Repr

/-- Books with the answers that are at hand. -/
structure Prompted where
  books : Books
  cancelled : Bool
  status : Awaited NetworkStatus
  block : Awaited (Option Block)
  /-- The wait that the last step asked for. -/
  pause : Option Duration

namespace Prompted

/-- Books without answers. -/
def start (books : Books) : Prompted := ⟨books, false, none, none, none⟩

/-- The surroundings in which steps find the answers that are at hand. -/
def surroundings : Surroundings Prompted where
  cancelled := cancelled
  status prompted := (prompted.status, prompted)
  block _ _ prompted := (prompted.block, prompted)
  rest span prompted := { prompted with pause := some span }

/-- The ledger of the books. -/
def ledger : Ledger Prompted :=
  Ledger.ofBooks.within books fun prompted books => { prompted with books }

end Prompted

/-- What the next step of an engine asks for. -/
def Machine.prompt (machine : Machine Prompted) : Prompt :=
  if machine.world.cancelled then .nothing
  else if machine.remaining ≠ 0 then .block machine.engine.next
  else if machine.engine.next < 0 then .nothing
  else .status

end ChainFollower.Sync
