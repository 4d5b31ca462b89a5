import ChainFollower.Proofs.Sync.Pursuit
import ChainFollower.Proofs.Sync.Trails

/-!
# What shows of a run

What shows of a run is its calls, its result and where it ends.  Where the remote node always
answers the same, a step shows as one of two functions of the engine: between two rounds it
looks at the status, and within a round it deals with what is answered for an index.
-/

namespace ChainFollower.Sync

variable {σ : Type} {status : Except SyncError NetworkStatus}
  {remote : Int64 → Except SyncError (Option Block)} {handler : Handler σ} {final : Int64}
  {engine : Engine} {world : σ} {machine next : Machine σ}

/-- Surroundings in which nobody cancels, the status is constant and what is answered to a
request for a block depends on its index only. -/
def Surroundings.constant (status : Except SyncError NetworkStatus)
    (remote : Int64 → Except SyncError (Option Block)) : Surroundings σ where
  cancelled _ := false
  status world := (some status, world)
  block index _ world := (some (remote index), world)
  rest _ world := world

section

variable (status : Except SyncError NetworkStatus)
  (remote : Int64 → Except SyncError (Option Block)) (world : σ)

@[simp] theorem Surroundings.cancelled_constant :
    (constant status remote).cancelled world = false := rfl

@[simp] theorem Surroundings.status_constant :
    (constant status remote).status world = (some status, world) := rfl

@[simp] theorem Machine.ask_constant (machine : Machine σ) :
    machine.ask (.constant status remote) =
      (some (remote machine.engine.next), machine.world) := rfl

@[simp] theorem Surroundings.rest_constant (span : Duration) :
    (constant status remote).rest span world = world := rfl

end

/-! ## What shows of a run -/

/-- What shows of a run: its calls so far, and its result and the next index once it is
over. -/
structure Sight where
  calls : List Call
  outcome : Option (Except SyncError Unit × Int64)

/-- What shows of a run that begins with calls. -/
def Sight.after (calls : List Call) (sight : Sight) : Sight :=
  { sight with calls := calls ++ sight.calls }

@[simp] theorem Sight.after_nil (sight : Sight) : sight.after [] = sight := rfl

/-- What shows of an engine that ends. -/
def Engine.halted (engine : Engine) (result : Except SyncError Unit) : Sight :=
  ⟨[], some (result, engine.next)⟩

/-- What shows of a machine after at most `fuel` steps. -/
def Machine.sight (around : Surroundings σ) (handler : Handler σ) (final : Int64)
    (machine : Machine σ) (fuel : Nat) : Sight where
  calls := machine.calls around handler final fuel
  outcome := (machine.run around handler final fuel).1.map fun result =>
    (result, (machine.run around handler final fuel).2.engine.next)

/-- What shows of an engine's run after at most `fuel` steps. -/
def Engine.sight (around : Surroundings σ) (handler : Handler σ) (start final : Int64)
    (engine : Engine) (world : σ) (fuel : Nat) : Sight where
  calls := engine.calls around handler start final fuel world
  outcome := (engine.sync around handler start final fuel world).1.map fun result =>
    (result, (engine.sync around handler start final fuel world).2.engine.next)

section

variable {around : Surroundings σ} {start : Int64} {result : Except SyncError Unit}

theorem Engine.sight_of_running
    (settled : Machine.settle around start ⟨engine, 0, world⟩ = .running machine) (fuel : Nat) :
    engine.sight around handler start final world fuel =
      machine.sight around handler final fuel := by
  simp only [sight, calls, sync, settled, Machine.sight]

theorem Engine.sight_of_ended
    (settled : Machine.settle around start ⟨engine, 0, world⟩ = .ended result machine)
    (fuel : Nat) :
    engine.sight around handler start final world fuel = machine.engine.halted result := by
  simp only [sight, calls, sync, settled, halted, Option.map_some]

theorem Machine.sight_of_running
    (stepped : machine.step around handler final = .running next) (fuel : Nat) :
    machine.sight around handler final (fuel + 1) =
      (next.sight around handler final fuel).after (machine.call? around).toList := by
  simp only [sight, Sight.after, run_of_running stepped, calls_of_running stepped]

theorem Machine.sight_of_ended
    (stepped : machine.step around handler final = .ended result next) (fuel : Nat) :
    machine.sight around handler final (fuel + 1) =
      (next.engine.halted result).after (machine.call? around).toList := by
  simp only [sight, Sight.after, Engine.halted, run_of_ended stepped, calls_of_ended stepped,
    List.append_nil, Option.map_some]

end

/-! ## Steps as they show -/

/-- Whether the round is cut short by a call: the blocks still to be asked for would build on
one that is taken back. -/
def Call.cuts : Call → Bool
  | .added _ => false
  | .removed _ => true

namespace Engine

/-- An engine between two rounds looks at the status: it ends, finds nothing to do, or
begins a round of some size. -/
def consult (status : Except SyncError NetworkStatus) (final : Int64) (idle : Sight)
    (round : Nat → Sight) (engine : Engine) : Sight :=
  if engine.next < 0 then engine.halted (.error (.syncer "start index was never resolved"))
  else
    match status with
    | .error error => engine.halted (.error error)
    | .ok seen =>
        if reachable seen.current.index final < engine.next then
          if engine.finished final then engine.halted (.ok ()) else idle
        else round (engine.roundSize (reachable seen.current.index final))

/-- An engine deals with what was answered for an index: it ends, or goes on, and then the
round may be cut short. -/
def deal (handler : Handler σ) (onward : Engine → Bool → σ → Sight) (index : Int64)
    (engine : Engine) (world : σ) : Except SyncError (Option Block) → Sight
  | .error error =>
      engine.halted (.error (.context ("unable to fetch block " ++ toString index) error))
  | .ok none => onward { engine with next := index + 1 } false world
  | .ok (some block) =>
      if block.id.index = engine.next then
        match handler.carry (engine.verdict block) world with
        | (.error error, _) => (engine.halted (.error error)).after [engine.verdict block]
        | (.ok (), world) =>
            (onward (engine.after (engine.verdict block)) (engine.verdict block).cuts world).after
              [engine.verdict block]
      else
        engine.halted (.error (.syncer ("got block " ++ block.id.display ++
          " instead of index " ++ toString engine.next)))

/-- An engine settles where to begin. -/
def setOut (status : Except SyncError NetworkStatus) (start : Int64) (onward : Engine → Sight)
    (engine : Engine) : Sight :=
  if start ≠ -1 then onward { engine with next := start }
  else
    match status with
    | .error error => engine.halted (.error error)
    | .ok seen => onward { engine with next := seen.genesis.index }

/-- The start is refused by the status, or settled. -/
theorem setOut_cases (status : Except SyncError NetworkStatus) (start : Int64) :
    (∃ result, ∀ onward engine, setOut status start onward engine = engine.halted result) ∨
      ∃ index, ∀ onward engine,
        setOut status start onward engine = onward { engine with next := index } := by
  by_cases given : start ≠ -1
  · exact Or.inr ⟨start, fun _ _ => if_pos given⟩
  · cases status with
    | error error => exact Or.inl ⟨.error error, fun _ _ => if_neg given⟩
    | ok seen => exact Or.inr ⟨seen.genesis.index, fun _ _ => if_neg given⟩

/-- The status ends the run, leaves nothing to do, or lets a round begin that is within what
may be asked for. -/
theorem consult_cases (final : Int64) (small : ∀ seen, status = .ok seen →
      seen.current.index.toInt < 4611686018427387904) (paced : Paced engine) :
    (∃ sight, ∀ idle round, engine.consult status final idle round = sight) ∨
      (∀ idle round, engine.consult status final idle round = idle) ∨
      ∃ (size : Nat) (seen : NetworkStatus), size ≠ 0 ∧ status = .ok seen ∧ 0 ≤ engine.next.toInt ∧
        engine.next.toInt + size ≤ (reachable seen.current.index final).toInt + 1 ∧
        ∀ idle round, engine.consult status final idle round = round size := by
  unfold consult
  by_cases negative : engine.next < 0
  · simp only [negative, if_true]
    exact Or.inl ⟨_, fun _ _ => rfl⟩
  simp only [negative, if_false]
  cases status with
  | error error => exact Or.inl ⟨_, fun _ _ => rfl⟩
  | ok seen =>
      by_cases passed : reachable seen.current.index final < engine.next
      · by_cases finished : engine.finished final = true
        · simp only [passed, finished, if_true]
          exact Or.inl ⟨_, fun _ _ => rfl⟩
        · simp only [passed, finished, if_true]
          exact Or.inr (Or.inl fun _ _ => rfl)
      · have natural : 0 ≤ engine.next.toInt := Int64.le_iff_toInt_le.1 (Int64.not_lt.1 negative)
        have within : (reachable seen.current.index final).toInt < 4611686018427387904 :=
          Int.lt_of_le_of_lt (Int64.le_iff_toInt_le.1 (reachable_le _ _)) (small seen rfl)
        obtain ⟨some, bounded⟩ := roundSize_bounds natural (Int64.not_lt.1 passed) within paced
        simp only [passed, if_false]
        exact Or.inr (Or.inr ⟨_, seen, some, rfl, natural, bounded, fun _ _ => rfl⟩)

/-- What was answered for the next index ends the run, or lets it go on. -/
theorem deal_cases (handler : Handler σ) (engine : Engine) (world : σ)
    (answer : Except SyncError (Option Block)) :
    (∃ sight, ∀ onward, engine.deal handler onward engine.next world answer = sight) ∨
      ∃ calls following cut later, following.concurrency = engine.concurrency ∧
        (cut = false → following.next = engine.next + 1) ∧
        ∀ onward, engine.deal handler onward engine.next world answer =
          (onward following cut later).after calls := by
  cases answer with
  | error error => exact Or.inl ⟨_, fun _ => rfl⟩
  | ok found =>
      cases found with
      | none => exact Or.inr ⟨[], engine.skip, false, world, rfl, fun _ => rfl, fun _ => rfl⟩
      | some block =>
          by_cases place : block.id.index = engine.next
          · simp only [deal, place, if_true]
            cases handler.carry (engine.verdict block) world with
            | mk result later =>
                cases result with
                | error error => exact Or.inl ⟨_, fun _ => rfl⟩
                | ok =>
                    apply Or.inr
                    refine ⟨_, _, _, _, ?_, ?_, fun _ => rfl⟩
                    · cases engine.verdict block <;> rfl
                    · cases decision : engine.verdict block with
                      | added added =>
                          obtain ⟨rfl, -⟩ := child_of_verdict decision
                          exact fun _ => congrArg (· + 1) place
                      | removed id => exact fun cut => nomatch cut
          · simp only [deal, place, if_false]
            exact Or.inl ⟨_, fun _ => rfl⟩

end Engine

namespace Machine

theorem decided_eq {left : Nat} (round : machine.remaining = left + 1) (call : Call) (world : σ) :
    machine.decided call world =
      ⟨machine.engine.after call, if call.cuts then 0 else left, world⟩ := by
  cases call with
  | added block => exact decided_added round block world
  | removed id => rfl

/-- A step between two rounds looks at the status. -/
theorem sight_of_spent (spent : machine.remaining = 0) (fuel : Nat) :
    machine.sight (.constant status remote) handler final (fuel + 1) =
      machine.engine.consult status final
        (machine.sight (.constant status remote) handler final fuel)
        fun size => (Machine.mk machine.engine size machine.world).sight
          (.constant status remote) handler final fuel := by
  have silent : machine.call? (.constant status remote) = none := call?_of_spent spent
  have stepped : machine.step (.constant status remote) handler final =
      machine.beginRound (.constant status remote) final := by
    simp only [step, spent, Surroundings.cancelled_constant, Bool.false_eq_true, if_false]
  by_cases negative : machine.engine.next < 0
  · simp only [beginRound, negative, if_true] at stepped
    simp only [sight_of_ended stepped, silent, Engine.consult, negative, if_true,
      Option.toList_none, Sight.after_nil]
  simp only [beginRound, negative, if_false, Surroundings.status_constant, idle,
    Surroundings.cancelled_constant, Surroundings.rest_constant] at stepped
  simp only [Engine.consult, negative, if_false]
  cases status with
  | error error =>
      rw [sight_of_ended stepped, silent]
      rfl
  | ok seen =>
      by_cases passed : Engine.reachable seen.current.index final < machine.engine.next
      · by_cases finished : machine.engine.finished final = true
        · simp only [moved, passed, finished, if_true, Bool.false_eq_true, if_false] at stepped ⊢
          rw [sight_of_ended stepped, silent]
          rfl
        · simp only [moved, passed, finished, if_true, Bool.false_eq_true, if_false] at stepped ⊢
          rw [sight_of_running stepped, silent]
          rfl
      · simp only [moved, passed, if_false] at stepped ⊢
        rw [sight_of_running stepped, silent]
        rfl

/-- A step within a round deals with what is answered for the next index. -/
theorem sight_of_round {left : Nat} (round : machine.remaining = left + 1) (fuel : Nat) :
    machine.sight (.constant status remote) handler final (fuel + 1) =
      machine.engine.deal handler
        (fun engine cut world => (Machine.mk engine (if cut then 0 else left) world).sight
          (.constant status remote) handler final fuel)
        machine.engine.next machine.world (remote machine.engine.next) := by
  have stepped : machine.step (.constant status remote) handler final =
      machine.fetch (.constant status remote) handler left := by
    simp only [step, round, Surroundings.cancelled_constant, Bool.false_eq_true, if_false]
  simp only [fetch, ask_constant] at stepped
  cases found : remote machine.engine.next with
  | error error =>
      have silent : machine.call? (.constant status remote) = none := by
        simp [call?, received?, found]
      simp only [found] at stepped
      rw [sight_of_ended stepped, silent]
      rfl
  | ok answer =>
      cases answer with
      | none =>
          have silent : machine.call? (.constant status remote) = none := by
            simp [call?, received?, found]
          simp only [found, receive] at stepped
          rw [sight_of_running stepped, silent]
          rfl
      | some block =>
          by_cases place : block.id.index = machine.engine.next
          · have called : machine.call? (.constant status remote) =
                some (machine.engine.verdict block) :=
              call?_of_answer rfl round (congrArg some found) place
            have unmoved : machine.asked (.constant status remote) = machine.world := rfl
            simp only [Engine.deal, place, if_true]
            cases carried : handler.carry (machine.engine.verdict block) machine.world with
            | mk result world =>
                rw [← unmoved] at carried
                cases result with
                | error error =>
                    rw [sight_of_ended (step_of_refused called (congrArg Prod.fst carried)), called]
                    rfl
                | ok =>
                    rw [sight_of_running (step_of_granted called (congrArg Prod.fst carried)),
                      called, carried, decided_eq round]
                    rfl
          · have silent : machine.call? (.constant status remote) = none := by
              simp [call?, received?, found, place]
            simp only [found, receive, moved, place, if_false] at stepped
            simp only [Engine.deal, place, if_false]
            rw [sight_of_ended stepped, silent]
            rfl

end Machine

end ChainFollower.Sync
