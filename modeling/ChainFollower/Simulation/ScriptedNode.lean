import ChainFollower.Sync.Engine

/-!
# A scripted remote node

A remote node whose chain changes as a script says, at numbered calls.  Status
and block requests are counted together, from one.
-/

namespace ChainFollower.Simulation

/-- A change of the node's chain. -/
inductive Edit where
  /-- Serves a block at an index, in place of any earlier one. -/
  | serve (index : Int64) (block : Block)
  /-- No longer has a block at an index. -/
  | drop (index : Int64)
  /-- Omits the block at an index deliberately. -/
  | omitAt (index : Int64)
  /-- No longer omits the block at an index. -/
  | restoreAt (index : Int64)
  /-- Reports this index as the tip. -/
  | tip (index : Int64)

/-- What happens at a numbered call, before it is answered. -/
structure Cue where
  call : Nat
  edits : List Edit
  /-- Whether the run is cancelled. -/
  cancels : Bool
  /-- The error with which the call fails, if it does. -/
  failure : Option SyncError

/-- A remote node with a script. -/
structure ScriptedNode where
  /-- The blocks served, each at an index of its own. -/
  blocks : List (Int64 × Block)
  omitted : List Int64
  /-- The reported tip; the highest index with a block when it is not set. -/
  tip : Option Int64
  genesis : Int64
  script : List Cue
  /-- The number of the call from which on every call cancels the run. -/
  callLimit : Nat
  /-- The number of calls made. -/
  calls : Nat

namespace ScriptedNode

/-- A change of the chain. -/
def edit (node : ScriptedNode) : Edit → ScriptedNode
  | .serve index block =>
      { node with blocks := (index, block) :: node.blocks.filter fun entry => entry.1 != index }
  | .drop index => { node with blocks := node.blocks.filter fun entry => entry.1 != index }
  | .omitAt index => { node with omitted := index :: node.omitted }
  | .restoreAt index => { node with omitted := node.omitted.filter (· != index) }
  | .tip index => { node with tip := some index }

/-- The hash of the block at an index, or a placeholder where there is none. -/
def hashAt (node : ScriptedNode) (index : Int64) : String :=
  match node.blocks.lookup index with
  | some block => block.id.hash
  | none => "unknown"

/-- The tip that is reported. -/
def reportedTip (node : ScriptedNode) : Int64 :=
  node.tip.getD (((node.blocks.map Prod.fst).max?).getD 0)

/-- The answer to a status request. -/
def status (node : ScriptedNode) : NetworkStatus where
  current := ⟨node.reportedTip, node.hashAt node.reportedTip⟩
  currentTimestamp := 0
  genesis := ⟨node.genesis, node.hashAt node.genesis⟩
  oldest := none
  peers := []

/-- The answer to a request for the block at an index. -/
def block (node : ScriptedNode) (index : Int64) : Except SyncError (Option Block) :=
  if index ∈ node.omitted then .ok none
  else
    match node.blocks.lookup index with
    | some block => .ok (some block)
    | none => .error (.internal ("no block at " ++ toString index))

/-- Counts a call and carries out its cues: whether the run is cancelled, the
error with which the call fails, and the node afterwards. -/
def beginCall (node : ScriptedNode) : Bool × Option SyncError × ScriptedNode :=
  let number := node.calls + 1
  let cues := node.script.filter fun cue => cue.call == number
  let edited := (cues.flatMap Cue.edits).foldl edit { node with calls := number }
  (node.callLimit ≤ number || cues.any Cue.cancels, cues.findSome? Cue.failure, edited)

/-- Makes a call: the answer, whether the run is cancelled, and the node
afterwards. -/
def call (answer : ScriptedNode → Except SyncError α) (node : ScriptedNode) :
    Except SyncError α × Bool × ScriptedNode :=
  let (cancels, failure, node) := node.beginCall
  match failure with
  | some error => (.error error, cancels, node)
  | none => (answer node, cancels, node)

end ScriptedNode

end ChainFollower.Simulation
