import ChainFollower.Simulation.ScriptedNode
import ChainFollower.Simulation.Timed
import ChainFollower.Sync.Follower

/-!
# Trials

A trial runs the engine or a follower against a scripted node on simulated time,
records every call in order, and makes chosen calls fail.
-/

namespace ChainFollower.Simulation

open Sync (Handler Surroundings Ledger Books TipCheck)

/-- A call that a trial records. -/
inductive Call where
  | status
  | block (index : Int64)
  | added (id : BlockId)
  | removed (id : BlockId)
  | prepare (workers : Nat)
  | setStart (start : Int64)
  | head
  /-- The newest blocks were read, so many of them. -/
  | recent (count : Nat)
  | storeAdd (id : BlockId)
  | storeRemove (id : BlockId)
  | logAdd (id : BlockId)
  | logRemove (id : BlockId)
  | count (name : String) (delta : Int64)
  deriving DecidableEq, Repr

/-- The line that records a call. -/
def Call.text : Call → String
  | .status => "status"
  | .block place => "block " ++ toString place
  | .added id => "add " ++ id.display
  | .removed id => "remove " ++ id.display
  | .prepare workers => "store init " ++ toString workers
  | .setStart start => "store set_start " ++ toString start
  | .head => "store head"
  | .recent number => "store cache " ++ toString number
  | .storeAdd id => "store add " ++ id.display
  | .storeRemove id => "store remove " ++ id.display
  | .logAdd id => "log add " ++ id.display
  | .logRemove id => "log remove " ++ id.display
  | .count name delta => "count " ++ name ++ " " ++ toString delta

/-- The calls that fail in a trial, and those that cancel it. -/
structure Mishaps where
  /-- The hashes of blocks whose addition fails, and those whose removal fails. -/
  failAdd : List String := []
  failRemove : List String := []
  cancelAdd : List String := []
  cancelRemove : List String := []
  failHead : Option SyncError := none
  failStart : Option SyncError := none
  failCounters : List String := []
  failLog : Bool := false

/-- A trial: the node, the books, and what is recorded and scripted. -/
structure Trial where
  node : ScriptedNode
  books : Books
  mishaps : Mishaps
  /-- Whom cancellations of the script hit. -/
  scripted : Target
  /-- The token of the run. -/
  current : Nat
  /-- The time in milliseconds since the epoch, for the question whether the newest
  block is recent. -/
  epochMillis : Int64
  /-- The answers to that question; the store answers when there is no script. -/
  tipScript : Option (List TipCheck)
  tipChecks : Nat
  /-- The calls so far, newest first. -/
  calls : List Call

/-- The number of events a wait may pass through. -/
def eventLimit : Nat := 1000000

namespace Trial

/-- Answers whether the store is at the tip. -/
def atTip (delay : Int64) (trial : Trial) : TipCheck × Trial :=
  let trial := { trial with tipChecks := trial.tipChecks + 1 }
  match trial.tipScript with
  | none =>
      let (answer, books) := trial.books.storing fun _ =>
        Store.BlockStore.atTip trial.epochMillis delay
      (⟨answer, 0⟩, { trial with books })
  | some [] => (⟨.ok false, 0⟩, trial)
  | some (check :: rest) => (check, { trial with tipScript := some rest })

end Trial

/-- A trial on the clock. -/
abbrev Run := Timed Trial

namespace Run

/-- The token of the run. -/
def target (run : Run) : Target := .child run.inner.current

/-- Whether the run is cancelled. -/
def isCancelled (run : Run) : Bool := run.cancelled run.target

/-- Records a call. -/
def record (call : Call) (run : Run) : Run :=
  { run with inner := { run.inner with calls := call :: run.inner.calls } }

/-- Asks the scripted node. -/
def ask (call : Call) (answer : ScriptedNode → Except SyncError α) (run : Run) :
    Awaited α × Run :=
  let run := run.record call
  let (result, cancels, node) := run.inner.node.call answer
  let run := { run with inner := { run.inner with node } }
  (some result, if cancels then run.cancel run.inner.scripted else run)

/-- The scripted node, the tokens and the clock of a trial. -/
def surroundings : Surroundings Run where
  cancelled := isCancelled
  status := ask .status fun node => .ok node.status
  block index _ := ask (.block index) fun node => node.block index
  rest span run := run.rest Trial.atTip eventLimit run.target span

/-! ## The engine alone -/

/-- A decision of the engine: it may cancel the run, and it may be refused. -/
def decide (call : Call) (hash : String) (cancelling failing : List String) (refusal : String)
    (run : Run) : Except SyncError Unit × Run :=
  let run := run.record call
  let run := if hash ∈ cancelling then run.cancel run.inner.scripted else run
  (if hash ∈ failing then .error (.internal refusal) else .ok (), run)

/-- A handler that only records decisions. -/
def handler : Handler Run where
  added block run :=
    decide (.added block.id) block.id.hash run.inner.mishaps.cancelAdd
      run.inner.mishaps.failAdd "add refused" run
  removed id run :=
    decide (.removed id) id.hash run.inner.mishaps.cancelRemove
      run.inner.mishaps.failRemove "remove refused" run

/-! ## A follower -/

/-- The ledger of the books of a trial. -/
def books : Ledger Run :=
  Ledger.ofBooks.within (fun run => run.inner.books)
    fun run books => { run with inner := { run.inner with books } }

/-- The failure of a store in a trial. -/
def storeFailure : SyncError := .storage (.database "injected failure")

/-- A call that is recorded and then either fails or is carried out. -/
def recorded (call : Call) (failure : Mishaps → Option SyncError)
    (act : Run → Except SyncError α × Run) (run : Run) : Except SyncError α × Run :=
  let run := run.record call
  match failure run.inner.mishaps with
  | some error => (.error error, run)
  | none => act run

/-- The ledger of the books with every call recorded and chosen calls failing. -/
def ledger : Ledger Run where
  prepare workers run := books.prepare workers (run.record (.prepare workers.length))
  setStart start := recorded (.setStart start) Mishaps.failStart (books.setStart start)
  head := recorded .head Mishaps.failHead books.head
  recent run :=
    match books.recent run with
    | (.ok blocks, run) => (.ok blocks, run.record (.recent blocks.length))
    | (.error error, run) => (.error error, run)
  add block := recorded (.storeAdd block.id)
    (fun mishaps => if block.id.hash ∈ mishaps.failAdd then some storeFailure else none)
    (books.add block)
  remove id := recorded (.storeRemove id)
    (fun mishaps => if id.hash ∈ mishaps.failRemove then some storeFailure else none)
    (books.remove id)
  logAddition block := recorded (.logAdd block.id)
    (fun mishaps => if mishaps.failLog then some (.internal "log refused") else none)
    (books.logAddition block)
  logRemoval id := recorded (.logRemove id)
    (fun mishaps => if mishaps.failLog then some (.internal "log refused") else none)
    (books.logRemoval id)
  count name delta := recorded (.count name delta)
    (fun mishaps => if name ∈ mishaps.failCounters then some storeFailure else none)
    (books.count name delta)

/-- The fuel for a run: each call takes at most two steps, and a run makes no more
calls than the limit and one after it. -/
def fuel (run : Run) : Nat :=
  2 * (run.inner.node.callLimit + 2) + 2

end Run

end ChainFollower.Simulation
