import ChainFollower.Node
import ChainFollower.Simulation.ScriptedNode
import ChainFollower.Simulation.Timed

/-!
# A remote node that serves a chain

A remote node that answers requests about a fixed chain, and a site with such a
node on simulated time.
-/

namespace ChainFollower.Simulation

open Remote (BlockAnswer BlockQuestion NodeError Reply Request)
open Sync (Books Ledger TipCheck Watchdog)

/-- A remote node that serves the chain of a scripted node, or answers everything with
one status. -/
structure ChainNode where
  chain : ScriptedNode
  onlyStatus : Option Nat

namespace ChainNode

/-- An error as a reply. -/
def refusal (status : Nat) (code : Int32) (message : String) : Reply :=
  .answered status (Json.writeObject (Json.field "code" code ++ Json.field "message" message))

/-- The answer to a question about a block. -/
def blockReply (node : ChainNode) (query : BlockQuery) : Reply :=
  let index := query.index.getD node.chain.reportedTip
  match node.chain.block index with
  | .ok block => .answered 200 (Json.encode (BlockAnswer.mk block))
  | .error _ => refusal 404 4 ("block " ++ toString index ++ " not found")

/-- The answer to a request. -/
def reply (node : ChainNode) (request : Request) : Reply :=
  match node.onlyStatus with
  | some status => refusal status 7 "node down"
  | none =>
      if request.url.endsWith "/network/status" then
        .answered 200 (Json.encode node.chain.status)
      else
        match Json.decode? (α := BlockQuestion) request.body with
        | some question => node.blockReply question.block
        | none => refusal 400 1 "not understood"

end ChainNode

/-- A node's visit to a remote node, with the number of its requests. -/
structure Visit where
  node : ChainNode
  books : Books
  requests : Nat
  /-- The time in milliseconds since the epoch, for the question whether the newest
  block is recent. -/
  epochMillis : Int64

namespace Visit

/-- Answers whether the store is at the tip. -/
def atTip (delay : Int64) (visit : Visit) : TipCheck × Visit :=
  let (answer, books) := visit.books.storing fun _ =>
    Store.BlockStore.atTip visit.epochMillis delay
  (⟨answer, 0⟩, { visit with books })

/-- The token of the visiting node. -/
def token : Target := .child 0

/-- A site with a remote node and its clock. -/
def site : Node.Site (Timed Visit) where
  send request timed :=
    (timed.inner.node.reply request,
      { timed with inner := { timed.inner with requests := timed.inner.requests + 1 } })
  rest span timed := timed.rest atTip 1000000 token span
  cancelled timed := timed.cancelled token
  cancel timed := timed.cancel token
  watch conditions timed := timed.guard 0 (Watchdog.ofConditions conditions timed.now)
  ledger := Ledger.ofBooks.within (fun timed => timed.inner.books)
    fun timed books => { timed with inner := { timed.inner with books } }

end Visit

end ChainFollower.Simulation
