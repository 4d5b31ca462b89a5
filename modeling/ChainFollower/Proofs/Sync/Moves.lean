import ChainFollower.Proofs.Words
import ChainFollower.Sync.Engine

/-!
# What a step can do

`Move machine progress` lists the outcomes of one step of the engine, each with the
answers and conditions that lead to it.  A decision is a block handed over or taken
back; every other step leaves the window as it is.
-/

namespace ChainFollower.Sync

/-! ## How far a round reaches -/

namespace Engine

variable {tip final : Int64}

/-- No index above the tip can be reached. -/
theorem reachable_le (tip final : Int64) : reachable tip final ≤ tip := by
  rw [reachable]
  split
  next bounded => exact Int64.le_of_lt bounded.2
  next => exact Int64.le_refl _

/-- Nor can one above the end. -/
theorem reachable_le_final (given : final ≠ -1) (tip : Int64) : reachable tip final ≤ final := by
  rw [reachable]
  split
  next => exact Int64.le_refl _
  next unbounded => exact Int64.not_lt.1 fun less => unbounded ⟨given, less⟩

/-- An end within the chain can be reached. -/
theorem reachable_eq (given : final ≠ -1) (within : final ≤ tip) : reachable tip final = final := by
  rw [reachable]
  by_cases less : final < tip
  · rw [if_pos ⟨given, less⟩]
  · rw [if_neg fun both => less both.2]
    exact Int64.le_antisymm (Int64.not_lt.1 less) within

/-- A round ends at the last index it is bounded by at most. -/
theorem next_add_roundSize_le {engine : Engine} {last : Int64} (ahead : engine.next ≤ last) :
    engine.next.toInt + engine.roundSize last ≤ last.toInt + 1 := by
  have upper : (engine.roundEnd last).toInt ≤ last.toInt := by
    rw [roundEnd, Words.toInt_min]
    exact Int.min_le_left _ _
  have order := Int64.le_iff_toInt_le.1 ahead
  unfold roundSize
  omega

end Engine

/-! ## Moves -/

variable {σ : Type}

/-- The world after the next block is asked for. -/
def Machine.asked (around : Surroundings σ) (machine : Machine σ) : σ :=
  (machine.ask around).2

/-- A decision that the handler carries out. -/
inductive Decision (around : Surroundings σ) (handler : Handler σ) (machine : Machine σ) :
    Machine σ → Prop
  | added (left : Nat) (block : Block) (round : machine.remaining = left + 1)
      (answer : (machine.ask around).1 = some (.ok (some block)))
      (place : block.id.index = machine.engine.next)
      (child : ∀ last ∈ machine.engine.window.head?, block.parent = last)
      (granted : (handler.added block (machine.asked around)).1 = .ok ()) :
      Decision around handler machine
        ⟨machine.engine.push block.id, left, (handler.added block (machine.asked around)).2⟩
  | removed (left : Nat) (block : Block) (last : BlockId) (round : machine.remaining = left + 1)
      (answer : (machine.ask around).1 = some (.ok (some block)))
      (place : block.id.index = machine.engine.next)
      (newest : machine.engine.window.head? = some last) (other : block.parent ≠ last)
      (granted : (handler.removed last (machine.asked around)).1 = .ok ()) :
      Decision around handler machine
        ⟨machine.engine.pop last, 0, (handler.removed last (machine.asked around)).2⟩

/-- The outcomes of a step. -/
inductive Move (around : Surroundings σ) (handler : Handler σ) (final : Int64)
    (machine : Machine σ) : Progress σ → Prop
  | stopped (cancelled : around.cancelled machine.world = true) :
      Move around handler final machine (.ended (.ok ()) machine.betweenRounds)
  | unresolved (spent : machine.remaining = 0) (negative : machine.engine.next < 0) :
      Move around handler final machine
        (.ended (.error (.syncer "start index was never resolved")) machine)
  | statusFailed (error : SyncError) (spent : machine.remaining = 0)
      (natural : 0 ≤ machine.engine.next)
      (answer : (around.status machine.world).1 = some (.error error)) :
      Move around handler final machine
        (.ended (.error error) (machine.moved (around.status machine.world).2))
  | finished (spent : machine.remaining = 0) (natural : 0 ≤ machine.engine.next)
      (finished : machine.engine.finished final = true) :
      Move around handler final machine
        (.ended (.ok ()) (machine.moved (around.status machine.world).2))
  /-- There was nothing to ask for when the run was cancelled. -/
  | noticed (spent : machine.remaining = 0) (natural : 0 ≤ machine.engine.next)
      (cancelled : around.cancelled (around.status machine.world).2 = true) :
      Move around handler final machine
        (.running (machine.moved (around.status machine.world).2))
  | rested (spent : machine.remaining = 0) (natural : 0 ≤ machine.engine.next)
      (unfinished : machine.engine.finished final = false)
      (idle : ∀ status, (around.status machine.world).1 = some (.ok status) →
        Engine.reachable status.current.index final < machine.engine.next) :
      Move around handler final machine
        (.running (machine.moved
          (around.rest machine.engine.pause (around.status machine.world).2)))
  | began (status : NetworkStatus) (spent : machine.remaining = 0)
      (natural : 0 ≤ machine.engine.next)
      (answer : (around.status machine.world).1 = some (.ok status))
      (reached : machine.engine.next ≤ Engine.reachable status.current.index final) :
      Move around handler final machine
        (.running ⟨machine.engine,
          machine.engine.roundSize (Engine.reachable status.current.index final),
          (around.status machine.world).2⟩)
  | interrupted (left : Nat) (round : machine.remaining = left + 1)
      (answer : (machine.ask around).1 = none) :
      Move around handler final machine
        (.running (machine.moved (machine.asked around)).betweenRounds)
  | fetchFailed (left : Nat) (error : SyncError) (round : machine.remaining = left + 1)
      (answer : (machine.ask around).1 = some (.error error)) :
      Move around handler final machine
        (.ended (.error (.context
          ("unable to fetch block " ++ toString machine.engine.next) error))
          (machine.moved (machine.asked around)))
  | skipped (left : Nat) (round : machine.remaining = left + 1)
      (answer : (machine.ask around).1 = some (.ok none)) :
      Move around handler final machine
        (.running ⟨machine.engine.skip, left, machine.asked around⟩)
  | misplaced (left : Nat) (block : Block) (round : machine.remaining = left + 1)
      (answer : (machine.ask around).1 = some (.ok (some block)))
      (elsewhere : block.id.index ≠ machine.engine.next) :
      Move around handler final machine
        (.ended (.error (.syncer ("got block " ++ block.id.display ++ " instead of index " ++
          toString machine.engine.next))) (machine.moved (machine.asked around)))
  | decided {next : Machine σ} (decision : Decision around handler machine next) :
      Move around handler final machine (.running next)
  | addFailed (left : Nat) (block : Block) (error : SyncError)
      (round : machine.remaining = left + 1)
      (answer : (machine.ask around).1 = some (.ok (some block)))
      (place : block.id.index = machine.engine.next)
      (child : ∀ last ∈ machine.engine.window.head?, block.parent = last)
      (refused : (handler.added block (machine.asked around)).1 = .error error) :
      Move around handler final machine
        (.ended (.error error) (machine.moved (handler.added block (machine.asked around)).2))
  | removeFailed (left : Nat) (block : Block) (last : BlockId) (error : SyncError)
      (round : machine.remaining = left + 1)
      (answer : (machine.ask around).1 = some (.ok (some block)))
      (newest : machine.engine.window.head? = some last) (other : block.parent ≠ last)
      (refused : (handler.removed last (machine.asked around)).1 = .error error) :
      Move around handler final machine
        (.ended (.error error) (machine.moved (handler.removed last (machine.asked around)).2))

namespace Machine

variable {around : Surroundings σ} {handler : Handler σ} {final : Int64} {machine : Machine σ}

/-- An idle step when the status leaves nothing to ask for. -/
theorem move_idle (spent : machine.remaining = 0) (natural : 0 ≤ machine.engine.next)
    (idle : ∀ status, (around.status machine.world).1 = some (.ok status) →
      Engine.reachable status.current.index final < machine.engine.next) :
    Move around handler final machine
      ((machine.moved (around.status machine.world).2).idle around final) := by
  unfold Machine.idle
  split
  next cancelled => exact .noticed spent natural cancelled
  next =>
    split
    next finished => exact .finished spent natural finished
    next unfinished => exact .rested spent natural (Bool.eq_false_iff.2 unfinished) idle

theorem move_beginRound (spent : machine.remaining = 0) :
    Move around handler final machine (machine.beginRound around final) := by
  unfold beginRound
  split
  next negative => exact .unresolved spent negative
  next notNegative =>
    have natural := Int64.not_lt.1 notNegative
    dsimp only
    split
    next answer =>
      exact move_idle spent natural fun status same => nomatch answer.symm.trans same
    next error answer => exact .statusFailed error spent natural answer
    next status answer =>
      split
      next behind =>
        refine move_idle spent natural fun other same => ?_
        cases answer.symm.trans same
        exact behind
      next reached =>
        exact .began status spent natural answer (Int64.not_lt.1 reached)

theorem move_handOver {left : Nat} {block : Block} (round : machine.remaining = left + 1)
    (answer : (machine.ask around).1 = some (.ok (some block)))
    (place : block.id.index = machine.engine.next)
    (child : ∀ last ∈ machine.engine.window.head?, block.parent = last) :
    Move around handler final machine
      ((machine.moved (machine.asked around)).handOver handler left block) := by
  unfold handOver
  dsimp only
  split
  next error refused => exact .addFailed left block error round answer place child refused
  next granted => exact .decided (.added left block round answer place child granted)

theorem move_takeBack {left : Nat} {block : Block} {last : BlockId}
    (round : machine.remaining = left + 1)
    (answer : (machine.ask around).1 = some (.ok (some block)))
    (place : block.id.index = machine.engine.next)
    (newest : machine.engine.window.head? = some last) (other : block.parent ≠ last) :
    Move around handler final machine
      ((machine.moved (machine.asked around)).takeBack handler last) := by
  unfold takeBack
  dsimp only
  split
  next error refused => exact .removeFailed left block last error round answer newest other refused
  next granted => exact .decided (.removed left block last round answer place newest other granted)

theorem move_fetch {left : Nat} (round : machine.remaining = left + 1) :
    Move around handler final machine (machine.fetch around handler left) := by
  unfold fetch
  dsimp only
  split
  next answer => exact .interrupted left round answer
  next error answer => exact .fetchFailed left error round answer
  next found answer =>
    unfold receive
    split
    next => exact .skipped left round answer
    next block =>
      split
      next place =>
        unfold link
        split
        next empty =>
          have noLast : machine.engine.window = [] := empty
          refine move_handOver round answer place fun last member => ?_
          rw [noLast] at member
          cases member
        next last rest cons =>
          have newest : machine.engine.window.head? = some last := congrArg List.head? cons
          split
          next child =>
            refine move_handOver round answer place fun other member => ?_
            cases newest.symm.trans member
            exact child
          next other => exact move_takeBack round answer place newest other
      next elsewhere => exact .misplaced left block round answer elsewhere

/-- Every step is one of the moves. -/
theorem move_step (around : Surroundings σ) (handler : Handler σ) (final : Int64)
    (machine : Machine σ) :
    Move around handler final machine (machine.step around handler final) := by
  unfold step
  split
  next cancelled => exact .stopped cancelled
  next =>
    split
    next spent => exact move_beginRound spent
    next left round => exact move_fetch round

/-! ## Runs -/

/-- The machines a run comes through from a first one. -/
inductive Reached (around : Surroundings σ) (handler : Handler σ) (final : Int64)
    (first : Machine σ) : Machine σ → Prop
  | start : Reached around handler final first first
  | step {machine next : Machine σ} (reached : Reached around handler final first machine)
      (stepped : machine.step around handler final = .running next) :
      Reached around handler final first next

/-- A run may be followed from its second machine. -/
theorem Reached.of_step {first second machine : Machine σ}
    (reached : Reached around handler final second machine)
    (stepped : first.step around handler final = .running second) :
    Reached around handler final first machine := by
  induction reached with
  | start => exact .step .start stepped
  | step _ steppedNext ih => exact .step ih steppedNext

/-- The machines right after a decision, and the first one. -/
inductive Decided (around : Surroundings σ) (handler : Handler σ) (final : Int64)
    (first : Machine σ) : Machine σ → Prop
  | start : Decided around handler final first first
  | decision {machine next : Machine σ} (reached : Reached around handler final first machine)
      (stepped : machine.step around handler final = .running next)
      (decision : Decision around handler machine next) :
      Decided around handler final first next

end Machine

end ChainFollower.Sync
