import ChainFollower.Proofs.Sync.Runs

/-!
# Trails of runs

What a run does step by step, as lists.  `Machine.trail note` is what is noted of the
machines that make the steps of a run; the calls of a run are such a list.
-/

namespace ChainFollower.Sync

variable {σ α : Type} {around : Surroundings σ} {handler : Handler σ} {final : Int64}
  {machine next : Machine σ}

namespace Machine

/-- What is noted of the machines that make the steps of a run, in order. -/
def trail (note : Machine σ → List α) (around : Surroundings σ) (handler : Handler σ)
    (final : Int64) : (fuel : Nat) → Machine σ → List α
  | 0, _ => []
  | fuel + 1, machine => note machine ++
      match machine.step around handler final with
      | .running next => next.trail note around handler final fuel
      | .ended _ _ => []

theorem trail_of_running (note : Machine σ → List α)
    (stepped : machine.step around handler final = .running next) (fuel : Nat) :
    machine.trail note around handler final (fuel + 1) =
      note machine ++ next.trail note around handler final fuel := by
  rw [trail, stepped]

theorem trail_of_ended (note : Machine σ → List α) {result : Except SyncError Unit}
    (stepped : machine.step around handler final = .ended result next) (fuel : Nat) :
    machine.trail note around handler final (fuel + 1) = note machine := by
  rw [trail, stepped, List.append_nil]

/-- What is in a trail was noted of a machine. -/
theorem exists_of_mem_trail {note : Machine σ → List α} {entry : α} {fuel : Nat}
    (member : entry ∈ machine.trail note around handler final fuel) :
    ∃ later : Machine σ, entry ∈ note later := by
  induction fuel generalizing machine with
  | zero => nomatch member
  | succ fuel ih =>
      cases stepped : machine.step around handler final with
      | running next =>
          rw [trail_of_running note stepped, List.mem_append] at member
          exact member.elim (fun noted => ⟨machine, noted⟩) ih
      | ended result last =>
          rw [trail_of_ended note stepped] at member
          exact ⟨machine, member⟩

theorem calls_eq_trail (fuel : Nat) (machine : Machine σ) :
    machine.calls around handler final fuel =
      machine.trail (fun machine => (machine.call? around).toList) around handler final fuel := by
  induction fuel generalizing machine with
  | zero => rfl
  | succ fuel ih =>
      cases stepped : machine.step around handler final with
      | running next => rw [calls_of_running stepped, trail_of_running _ stepped, ih]
      | ended result last => rw [calls_of_ended stepped, trail_of_ended _ stepped]

end Machine

/-! ## Settling the start -/

namespace Machine

/-- The ways in which the start of a run is settled. -/
inductive Settled (around : Surroundings σ) (start : Int64) (engine : Engine) (world : σ) :
    Progress σ → Prop
  | given (given : start ≠ -1) :
      Settled around start engine world (.running ⟨{ engine with next := start }, 0, world⟩)
  | cancelled (unset : start = -1) (cancelled : around.cancelled world = true) :
      Settled around start engine world (.ended (.ok ()) ⟨engine, 0, world⟩)
  | unanswered (unset : start = -1) (uncancelled : around.cancelled world = false)
      (answer : (around.status world).1 = none) :
      Settled around start engine world (.ended (.ok ()) ⟨engine, 0, (around.status world).2⟩)
  | failed (error : SyncError) (unset : start = -1)
      (uncancelled : around.cancelled world = false)
      (answer : (around.status world).1 = some (.error error)) :
      Settled around start engine world
        (.ended (.error error) ⟨engine, 0, (around.status world).2⟩)
  | genesis (status : NetworkStatus) (unset : start = -1)
      (uncancelled : around.cancelled world = false)
      (answer : (around.status world).1 = some (.ok status)) :
      Settled around start engine world
        (.running ⟨{ engine with next := status.genesis.index }, 0, (around.status world).2⟩)

section

variable {start : Int64} {engine : Engine} {world : σ} (unset : start = -1)
  (uncancelled : around.cancelled world = false)
include unset uncancelled

/-- Without a start, a run begins at the genesis block of the remote node. -/
theorem settle_of_status {status : NetworkStatus}
    (answer : (around.status world).1 = some (.ok status)) :
    settle around start ⟨engine, 0, world⟩ =
      .running ⟨{ engine with next := status.genesis.index }, 0, (around.status world).2⟩ := by
  unfold settle
  rw [if_neg (not_not_intro unset), uncancelled, if_neg Bool.false_ne_true]
  dsimp only
  rw [answer]
  rfl

theorem settle_of_failure {error : SyncError}
    (answer : (around.status world).1 = some (.error error)) :
    settle around start ⟨engine, 0, world⟩ =
      .ended (.error error) ⟨engine, 0, (around.status world).2⟩ := by
  unfold settle
  rw [if_neg (not_not_intro unset), uncancelled, if_neg Bool.false_ne_true]
  dsimp only
  rw [answer]
  rfl

end

theorem settled_settle (around : Surroundings σ) (start : Int64) (engine : Engine) (world : σ) :
    Settled around start engine world (settle around start ⟨engine, 0, world⟩) := by
  unfold settle
  by_cases given : start ≠ -1
  · rw [if_pos given]
    exact .given given
  have unset : start = -1 := Decidable.not_not.mp given
  rw [if_neg given]
  cases cancelled : around.cancelled world with
  | true =>
      rw [if_pos rfl]
      exact .cancelled unset cancelled
  | false =>
      rw [if_neg Bool.false_ne_true]
      dsimp only
      cases answer : (around.status world).1 with
      | none => exact .unanswered unset cancelled answer
      | some result =>
          cases result with
          | error error => exact .failed error unset cancelled answer
          | ok status => exact .genesis status unset cancelled answer

/-- A run starts between two rounds. -/
theorem remaining_of_settle {start : Int64} {engine : Engine} {world : σ} {first : Machine σ}
    (settled : settle around start ⟨engine, 0, world⟩ = .running first) : first.remaining = 0 := by
  have cases := settled_settle around start engine world
  rw [settled] at cases
  cases cases <;> rfl

end Machine

/-! ## Runs of engines -/

/-- What is noted of the machines of an engine's run. -/
def Engine.trail (note : Machine σ → List α) (around : Surroundings σ) (handler : Handler σ)
    (start final : Int64) (fuel : Nat) (engine : Engine) (world : σ) : List α :=
  match Machine.settle around start ⟨engine, 0, world⟩ with
  | .running machine => machine.trail note around handler final fuel
  | .ended _ _ => []

/-- What is noted of the machines of a follower's run. -/
def Follower.trail (note : Machine σ → List α) (follower : Follower) (around : Surroundings σ)
    (ledger : Ledger σ) (start final : Int64) (fuel : Nat) (world : σ) : List α :=
  match follower.prepare ledger start world with
  | (.error _, _) => []
  | (.ok (first, engine), world) =>
      engine.trail note around (Follower.handler ledger) first final fuel world

/-- The calls that an engine makes in at most `fuel` steps. -/
def Engine.calls (around : Surroundings σ) (handler : Handler σ) (start final : Int64)
    (fuel : Nat) (engine : Engine) (world : σ) : List Call :=
  match Machine.settle around start ⟨engine, 0, world⟩ with
  | .running machine => machine.calls around handler final fuel
  | .ended _ _ => []

section

variable {follower : Follower} {ledger : Ledger σ} {start first : Int64} {engine : Engine}
  {world prepared : σ} {error : SyncError}

/-- A follower that is prepared runs its engine. -/
theorem Follower.sync_of_prepared
    (ready : follower.prepare ledger start world = (.ok (first, engine), prepared))
    (final : Int64) (fuel : Nat) :
    follower.sync around ledger start final fuel world =
      ((engine.sync around (Follower.handler ledger) first final fuel prepared).1,
        (engine.sync around (Follower.handler ledger) first final fuel prepared).2.world) := by
  rw [sync, ready]

theorem Follower.calls_of_prepared
    (ready : follower.prepare ledger start world = (.ok (first, engine), prepared))
    (final : Int64) (fuel : Nat) :
    follower.calls around ledger start final fuel world =
      engine.calls around (Follower.handler ledger) first final fuel prepared := by
  rw [calls, ready]
  rfl

theorem Follower.calls_eq_trail (final : Int64) (fuel : Nat) :
    follower.calls around ledger start final fuel world =
      follower.trail (fun machine => (machine.call? around).toList) around ledger start final fuel
        world := by
  unfold Follower.calls Follower.trail Engine.trail
  cases follower.prepare ledger start world with
  | mk result prepared =>
      cases result with
      | error error => rfl
      | ok ready =>
          dsimp only
          cases Machine.settle around ready.1 ⟨ready.2, 0, prepared⟩ with
          | running machine => exact machine.calls_eq_trail fuel
          | ended result last => rfl

/-- What the ledger keeps is kept by the preparation of a run that is not refused at once. -/
theorem Follower.kept_prepare (Kept : σ → Prop) (valid : ¬start < -1)
    (begun : Kept (ledger.prepare follower.workers world))
    (setStart : ∀ world, Kept world → Kept (ledger.setStart start world).2)
    (head : ∀ world, Kept world → Kept (ledger.head world).2)
    (recent : ∀ world, Kept world → Kept (ledger.recent world).2) :
    Kept (follower.prepare ledger start world).2 := by
  have started : Kept (startIndex ledger start (ledger.prepare follower.workers world)).2 := by
    unfold startIndex
    by_cases given : start ≠ -1
    · rw [if_pos given]
      exact setStart _ begun
    · rw [if_neg given]
      have found := head _ begun
      cases answer : ledger.head (ledger.prepare follower.workers world) with
      | mk result after =>
          rw [answer] at found
          cases result <;> exact found
  unfold prepare
  rw [if_neg valid]
  dsimp only
  generalize startIndex ledger start (ledger.prepare follower.workers world) = settled at started ⊢
  obtain ⟨result, after⟩ := settled
  cases result with
  | error error => exact started
  | ok first =>
      have read := recent after started
      dsimp only
      generalize ledger.recent after = found at read ⊢
      obtain ⟨newest, later⟩ := found
      cases newest <;> exact read

/-- A start below -1 is refused, and nothing is prepared. -/
theorem Follower.prepare_of_invalid (invalid : start < -1) :
    follower.prepare ledger start world =
      (.error (.config ("invalid start index " ++ toString start)), world) :=
  if_pos invalid

end

/-! ## Decisions -/

namespace Machine

/-- The call that a step makes, if it makes one that is carried out. -/
def granted? (around : Surroundings σ) (handler : Handler σ) (machine : Machine σ) : Option Call :=
  (machine.call? around).filter fun call => (handler.carry call (machine.asked around)).1.isOk

section

variable {call : Call}

theorem granted?_of_silent (silent : machine.call? around = none) :
    machine.granted? around handler = none := by
  rw [granted?, silent, Option.filter_none]

theorem granted?_of_granted (called : machine.call? around = some call)
    (granted : (handler.carry call (machine.asked around)).1 = .ok ()) :
    machine.granted? around handler = some call := by
  rw [granted?, called, Option.filter_some, granted]
  rfl

theorem granted?_of_refused {error : SyncError} (called : machine.call? around = some call)
    (refused : (handler.carry call (machine.asked around)).1 = .error error) :
    machine.granted? around handler = none := by
  rw [granted?, called, Option.filter_some, refused]
  rfl

end

/-- The calls of a run that are carried out, in order. -/
def decisions (around : Surroundings σ) (handler : Handler σ) (final : Int64) (fuel : Nat)
    (machine : Machine σ) : List Call :=
  machine.trail (fun machine => (machine.granted? around handler).toList) around handler final fuel

end Machine

/-- The calls of a follower's run that are carried out, in order. -/
def Follower.decisions (follower : Follower) (around : Surroundings σ) (ledger : Ledger σ)
    (start final : Int64) (fuel : Nat) (world : σ) : List Call :=
  follower.trail (fun machine => (machine.granted? around (Follower.handler ledger)).toList) around
    ledger start final fuel world

/-- A decision of a run is made by a machine. -/
theorem Follower.exists_of_mem_decisions {follower : Follower} {ledger : Ledger σ}
    {start : Int64} {fuel : Nat} {world : σ} {call : Call}
    (member : call ∈ follower.decisions around ledger start final fuel world) :
    ∃ machine : Machine σ, machine.granted? around (Follower.handler ledger) = some call := by
  unfold Follower.decisions Follower.trail Engine.trail at member
  split at member
  next => nomatch member
  next =>
    split at member
    next =>
      obtain ⟨machine, noted⟩ := Machine.exists_of_mem_trail member
      exact ⟨machine, Option.mem_toList.1 noted⟩
    next => nomatch member

/-- What holds of the calls carried out so far and the world is kept by a run: by requests and
waits, by a call that is carried out, and by a call that fails. -/
structure Handler.Keeps (around : Surroundings σ) (handler : Handler σ)
    (Kept : List Call → σ → Prop) : Prop where
  silent : ∀ made, around.Keeps (Kept made)
  granted : ∀ made call world, Kept made world → (handler.carry call world).1 = .ok () →
    Kept (made ++ [call]) (handler.carry call world).2
  refused : ∀ made call world error, Kept made world →
    (handler.carry call world).1 = .error error → Kept made (handler.carry call world).2

namespace Handler.Keeps

variable {Kept : List Call → σ → Prop} {made : List Call}

/-- What is kept is kept by a step. -/
theorem step (keeps : handler.Keeps around Kept) (final : Int64) (kept : Kept made machine.world) :
    Kept (made ++ (machine.granted? around handler).toList)
      (machine.step around handler final).machine.world := by
  cases called : machine.call? around with
  | none =>
      rw [Machine.granted?_of_silent called, Option.toList_none, List.append_nil]
      exact Machine.kept_of_silent (keeps.silent made) called kept
  | some call =>
      have asked : Kept made (machine.asked around) :=
        (keeps.silent made).block machine.engine.next machine.ahead machine.world kept
      cases result : (handler.carry call (machine.asked around)).1 with
      | ok =>
          rw [Machine.granted?_of_granted called result, Machine.step_of_granted called result]
          exact keeps.granted made call _ asked result
      | error error =>
          rw [Machine.granted?_of_refused called result, Option.toList_none, List.append_nil,
            Machine.step_of_refused called result]
          exact keeps.refused made call _ error asked result

/-- And by a run. -/
theorem run (keeps : handler.Keeps around Kept) (final : Int64) (fuel : Nat)
    (machine : Machine σ) (kept : Kept made machine.world) :
    Kept (made ++ machine.decisions around handler final fuel)
      (machine.run around handler final fuel).2.world := by
  induction fuel generalizing machine made with
  | zero =>
      rw [Machine.decisions, Machine.trail, List.append_nil]
      exact kept
  | succ fuel ih =>
      have after := keeps.step final kept
      rw [Machine.decisions]
      cases stepped : machine.step around handler final with
      | running next =>
          rw [stepped] at after
          rw [Machine.run_of_running stepped, Machine.trail_of_running _ stepped,
            ← List.append_assoc]
          exact ih next after
      | ended result last =>
          rw [stepped] at after
          rw [Machine.run_of_ended stepped, Machine.trail_of_ended _ stepped]
          exact after

/-- And by the run of a follower, from the prepared world on. -/
theorem sync {ledger : Ledger σ} (keeps : (Follower.handler ledger).Keeps around Kept)
    (follower : Follower) (start final : Int64) (fuel : Nat) (world : σ)
    (kept : Kept [] (follower.prepare ledger start world).2) :
    Kept (follower.decisions around ledger start final fuel world)
      (follower.sync around ledger start final fuel world).2 := by
  cases readiness : follower.prepare ledger start world with
  | mk ready prepared =>
      rw [readiness] at kept
      cases ready with
      | error error =>
          simp only [Follower.decisions, Follower.trail, Follower.sync, readiness]
          exact kept
      | ok ready =>
          obtain ⟨first, engine⟩ := ready
          simp only [Follower.decisions, Follower.trail, Follower.sync, readiness, Engine.sync,
            Engine.trail]
          have settled := Machine.settled_settle around first engine prepared
          generalize Machine.settle around first ⟨engine, 0, prepared⟩ = progress at settled ⊢
          have asked := (keeps.silent []).status prepared kept
          cases settled with
          | given => exact keeps.run final fuel ⟨_, 0, _⟩ kept
          | genesis => exact keeps.run final fuel ⟨_, 0, _⟩ asked
          | cancelled => exact kept
          | unanswered | failed => exact asked

end Handler.Keeps

end ChainFollower.Sync
