import ChainFollower.Proofs.Sync.Moves

/-!
# The calls of a run

A run calls its handler to have blocks added and removed.  `Machine.call?` is the call
that a step makes and `Machine.calls` lists those of a run; of all that a handler does, a
step depends on what becomes of its call only.
-/

namespace ChainFollower.Sync

/-- A call of a handler. -/
inductive Call where
  | added (block : Block)
  | removed (id : BlockId)

variable {σ : Type}

/-- Carries out a call. -/
def Handler.carry (handler : Handler σ) : Call → σ → Except SyncError Unit × σ
  | .added block => handler.added block
  | .removed id => handler.removed id

namespace Engine

/-- What becomes of a block of the right index: it is handed over if it continues the
window, and else the last block of the window is taken back. -/
def verdict (engine : Engine) (block : Block) : Call :=
  match engine.window with
  | [] => .added block
  | last :: _ => if block.parent = last then .added block else .removed last

/-- The engine after a call that was carried out. -/
def after (engine : Engine) : Call → Engine
  | .added block => engine.push block.id
  | .removed id => engine.pop id

theorem verdict_of_child {engine : Engine} {block : Block}
    (child : ∀ last ∈ engine.window.head?, block.parent = last) :
    engine.verdict block = .added block := by
  unfold verdict
  split
  next => rfl
  next last _ window => rw [if_pos (child last (by rw [window]; rfl))]

theorem verdict_of_other {engine : Engine} {block : Block} {last : BlockId}
    (newest : engine.window.head? = some last) (other : block.parent ≠ last) :
    engine.verdict block = .removed last := by
  obtain ⟨rest, window⟩ := List.head?_eq_some_iff.1 newest
  rw [verdict, window]
  exact if_neg other

/-- A block that is handed over is a child of the last one of the window. -/
theorem child_of_verdict {engine : Engine} {block added : Block}
    (decided : engine.verdict block = .added added) :
    added = block ∧ ∀ last ∈ engine.window.head?, block.parent = last := by
  unfold verdict at decided
  split at decided
  next window =>
    cases decided
    refine ⟨rfl, fun last member => ?_⟩
    rw [window] at member
    cases member
  next last _ window =>
    split at decided
    next child =>
      cases decided
      refine ⟨rfl, fun other member => ?_⟩
      rw [window] at member
      cases member
      exact child
    next => cases decided

/-- A block that is taken back is the last one of the window. -/
theorem other_of_verdict {engine : Engine} {block : Block} {id : BlockId}
    (decided : engine.verdict block = .removed id) :
    engine.window.head? = some id ∧ block.parent ≠ id := by
  unfold verdict at decided
  split at decided
  next => cases decided
  next last _ window =>
    split at decided
    next => cases decided
    next other =>
      cases decided
      exact ⟨congrArg List.head? window, other⟩

end Engine

/-- The machine after a step. -/
def Progress.machine : Progress σ → Machine σ
  | .running machine => machine
  | .ended _ machine => machine

/-- Requests and waits keep a property of the world. -/
structure Surroundings.Keeps (around : Surroundings σ) (Kept : σ → Prop) : Prop where
  status : ∀ world, Kept world → Kept (around.status world).2
  block : ∀ index ahead world, Kept world → Kept (around.block index ahead world).2
  rest : ∀ span world, Kept world → Kept (around.rest span world)

namespace Machine

variable {around : Surroundings σ} {handler : Handler σ} {final : Int64} {machine next : Machine σ}
  {call : Call}

/-- The block of the right index that a step receives, if it receives one. -/
def received? (around : Surroundings σ) (machine : Machine σ) : Option Block :=
  if around.cancelled machine.world ∨ machine.remaining = 0 then none
  else
    match (machine.ask around).1 with
    | some (.ok (some block)) => if block.id.index = machine.engine.next then some block else none
    | _ => none

/-- The call that a step makes, if it makes one. -/
def call? (around : Surroundings σ) (machine : Machine σ) : Option Call :=
  (machine.received? around).map machine.engine.verdict

/-- The machine after a call that was carried out.  A removal ends the round. -/
def decided (machine : Machine σ) (call : Call) (world : σ) : Machine σ where
  engine := machine.engine.after call
  remaining :=
    match call with
    | .added _ => machine.remaining - 1
    | .removed _ => 0
  world := world

theorem decided_added {left : Nat} (round : machine.remaining = left + 1) (block : Block)
    (world : σ) :
    machine.decided (.added block) world = ⟨machine.engine.push block.id, left, world⟩ := by
  rw [decided, round]
  rfl

/-- The calls that a run makes in at most `fuel` steps, in order; the last one may have
failed. -/
def calls (around : Surroundings σ) (handler : Handler σ) (final : Int64) :
    (fuel : Nat) → Machine σ → List Call
  | 0, _ => []
  | fuel + 1, machine => (machine.call? around).toList ++
      match machine.step around handler final with
      | .running next => next.calls around handler final fuel
      | .ended _ _ => []

/-! ## Steps that call -/

theorem received?_eq_some_iff {block : Block} :
    machine.received? around = some block ↔
      around.cancelled machine.world = false ∧ machine.remaining ≠ 0 ∧
        (machine.ask around).1 = some (.ok (some block)) ∧
        block.id.index = machine.engine.next := by
  unfold received?
  split
  next idle =>
    refine iff_of_false (fun none => nomatch none) ?_
    rintro ⟨uncancelled, round, -⟩
    rcases idle with cancelled | spent
    · rw [uncancelled] at cancelled
      cases cancelled
    · exact round spent
  next busy =>
    obtain ⟨uncancelled, round⟩ := not_or.1 busy
    split
    next found answer =>
      rw [answer]
      simp only [Option.some.injEq, Except.ok.injEq, Option.ite_none_right_eq_some]
      constructor
      · rintro ⟨place, rfl⟩
        exact ⟨Bool.eq_false_iff.2 uncancelled, round, rfl, place⟩
      · rintro ⟨-, -, rfl, place⟩
        exact ⟨place, rfl⟩
    next noBlock =>
      refine iff_of_false (fun none => nomatch none) ?_
      rintro ⟨-, -, answer, -⟩
      exact noBlock block answer

/-- Between two rounds nothing is asked of the handler. -/
theorem call?_of_spent (spent : machine.remaining = 0) : machine.call? around = none := by
  rw [call?, received?, if_pos (Or.inr spent)]
  rfl

/-- A call is about the block that answers the request for the next index. -/
theorem call?_eq_some_iff :
    machine.call? around = some call ↔
      ∃ block, machine.received? around = some block ∧ machine.engine.verdict block = call := by
  rw [call?, Option.map_eq_some_iff]

/-- A block at the index that is asked for makes a step call. -/
theorem call?_of_answer {block : Block} {left : Nat}
    (uncancelled : around.cancelled machine.world = false) (round : machine.remaining = left + 1)
    (answer : (machine.ask around).1 = some (.ok (some block)))
    (place : block.id.index = machine.engine.next) :
    machine.call? around = some (machine.engine.verdict block) :=
  call?_eq_some_iff.2
    ⟨block, received?_eq_some_iff.2 ⟨uncancelled, by omega, answer, place⟩, rfl⟩

/-- A block that is received is handed over or taken back, as the engine decides. -/
theorem link_eq_verdict (machine : Machine σ) (left : Nat) (block : Block) :
    machine.link handler left block =
      match machine.engine.verdict block with
      | .added added => machine.handOver handler left added
      | .removed last => machine.takeBack handler last := by
  unfold link Engine.verdict
  cases machine.engine.window with
  | nil => rfl
  | cons last rest => by_cases child : block.parent = last <;> simp [child]

theorem step_of_received {block : Block} {left : Nat}
    (received : machine.received? around = some block) (round : machine.remaining = left + 1) :
    machine.step around handler final =
      (machine.moved (machine.asked around)).link handler left block := by
  obtain ⟨uncancelled, -, answer, place⟩ := received?_eq_some_iff.1 received
  simp [step, uncancelled, round, fetch, answer, receive, moved, place, asked]

/-- A step whose call is carried out goes on with the decision. -/
theorem step_of_granted (called : machine.call? around = some call)
    (granted : (handler.carry call (machine.asked around)).1 = .ok ()) :
    machine.step around handler final =
      .running (machine.decided call (handler.carry call (machine.asked around)).2) := by
  obtain ⟨block, received, verdict⟩ := call?_eq_some_iff.1 called
  obtain ⟨left, round⟩ :=
    Nat.exists_eq_succ_of_ne_zero (received?_eq_some_iff.1 received).2.1
  rw [step_of_received received round, link_eq_verdict]
  cases call with
  | added added =>
      rw [show (machine.moved (machine.asked around)).engine.verdict block = _ from verdict]
      simp only [Handler.carry] at granted
      simp [handOver, moved, granted, decided, Engine.after, Handler.carry, round]
  | removed last =>
      rw [show (machine.moved (machine.asked around)).engine.verdict block = _ from verdict]
      simp only [Handler.carry] at granted
      simp [takeBack, moved, granted, decided, Engine.after, Handler.carry]

/-- A step whose call fails ends the run and leaves the engine as it was. -/
theorem step_of_refused {error : SyncError} (called : machine.call? around = some call)
    (refused : (handler.carry call (machine.asked around)).1 = .error error) :
    machine.step around handler final =
      .ended (.error error) (machine.moved (handler.carry call (machine.asked around)).2) := by
  obtain ⟨block, received, verdict⟩ := call?_eq_some_iff.1 called
  obtain ⟨left, round⟩ :=
    Nat.exists_eq_succ_of_ne_zero (received?_eq_some_iff.1 received).2.1
  rw [step_of_received received round, link_eq_verdict]
  cases call with
  | added added =>
      rw [show (machine.moved (machine.asked around)).engine.verdict block = _ from verdict]
      simp only [Handler.carry] at refused
      simp [handOver, moved, refused, Handler.carry]
  | removed last =>
      rw [show (machine.moved (machine.asked around)).engine.verdict block = _ from verdict]
      simp only [Handler.carry] at refused
      simp [takeBack, moved, refused, Handler.carry]

/-! ## Steps that do not call -/

/-- A step without a call asks nothing of the handler. -/
theorem step_congr_handler (silent : machine.call? around = none) (other : Handler σ) :
    machine.step around handler final = machine.step around other final := by
  rw [call?, Option.map_eq_none_iff] at silent
  unfold received? at silent
  unfold step
  cases cancelled : around.cancelled machine.world
  · rw [if_neg Bool.false_ne_true, if_neg Bool.false_ne_true]
    cases round : machine.remaining with
    | zero => rfl
    | succ left =>
        rw [cancelled, round] at silent
        dsimp only
        unfold fetch
        dsimp only
        split
        next => rfl
        next => rfl
        next found answer =>
          cases found with
          | none => rfl
          | some block =>
              rw [answer] at silent
              have elsewhere : block.id.index ≠ machine.engine.next := by simpa using silent
              simp [receive, moved, elsewhere]
  · rfl

/-- A handler that carries out nothing. -/
def refusing : Handler σ :=
  ⟨fun _ world => (.error (.syncer "refused"), world),
    fun _ world => (.error (.syncer "refused"), world)⟩

theorem not_decision_refusing : ¬Decision around refusing machine next := by
  intro decision
  cases decision with
  | added left block round answer place child granted => cases granted
  | removed left block last round answer place newest other granted => cases granted

/-- The outcomes of a step without a call are those that no handler has a part in. -/
theorem move_of_silent (handler : Handler σ) (final : Int64)
    (silent : machine.call? around = none) :
    Move around refusing final machine (machine.step around handler final) := by
  rw [step_congr_handler silent refusing]
  exact move_step around refusing final machine

/-- A step without a call leaves the window as it was. -/
theorem window_of_silent (silent : machine.call? around = none)
    (stepped : machine.step around handler final = .running next) :
    next.engine.window = machine.engine.window ∧
      next.engine.windowLimit = machine.engine.windowLimit := by
  have move := move_of_silent handler final silent
  rw [stepped] at move
  cases move with
  | decided decision => exact absurd decision not_decision_refusing
  | _ => exact ⟨rfl, rfl⟩

/-- Requests and waits leave the world with a property, whatever the answers. -/
theorem kept_of_silent {Kept : σ → Prop} (keeps : around.Keeps Kept)
    (silent : machine.call? around = none) (kept : Kept machine.world) :
    Kept (machine.step around handler final).machine.world := by
  have move := move_of_silent handler final silent
  have keptStatus := keeps.status _ kept
  have keptBlock := keeps.block machine.engine.next machine.ahead _ kept
  generalize machine.step around handler final = progress at move ⊢
  cases move with
  | decided decision => exact absurd decision not_decision_refusing
  | stopped | unresolved => exact kept
  | statusFailed | finished | noticed | began => exact keptStatus
  | rested => exact keeps.rest _ _ keptStatus
  | interrupted | fetchFailed | skipped | misplaced | addFailed | removeFailed => exact keptBlock

/-! ## Runs -/

/-- A run from an engine that goes on is the run from the next machine. -/
theorem run_of_running (stepped : machine.step around handler final = .running next) (fuel : Nat) :
    machine.run around handler final (fuel + 1) = next.run around handler final fuel := by
  rw [run, stepped]

theorem run_of_ended {result : Except SyncError Unit}
    (stepped : machine.step around handler final = .ended result next) (fuel : Nat) :
    machine.run around handler final (fuel + 1) = (some result, next) := by
  rw [run, stepped]

/-- A run that ends has come to a step that ends. -/
theorem exists_reached_of_run {first last : Machine σ} {result : Except SyncError Unit} {fuel : Nat}
    (ended : first.run around handler final fuel = (some result, last)) :
    ∃ machine, Reached around handler final first machine ∧
      machine.step around handler final = .ended result last := by
  induction fuel generalizing first with
  | zero => cases ended
  | succ fuel ih =>
      cases stepped : first.step around handler final with
      | running next =>
          rw [run_of_running stepped] at ended
          obtain ⟨machine, reached, steppedLast⟩ := ih ended
          exact ⟨machine, reached.of_step stepped, steppedLast⟩
      | ended result last =>
          rw [run_of_ended stepped] at ended
          cases ended
          exact ⟨first, .start, stepped⟩

theorem calls_of_running (stepped : machine.step around handler final = .running next)
    (fuel : Nat) :
    machine.calls around handler final (fuel + 1) =
      (machine.call? around).toList ++ next.calls around handler final fuel := by
  rw [calls, stepped]

theorem calls_of_ended {result : Except SyncError Unit}
    (stepped : machine.step around handler final = .ended result next) (fuel : Nat) :
    machine.calls around handler final (fuel + 1) = (machine.call? around).toList := by
  rw [calls, stepped, List.append_nil]

end Machine

end ChainFollower.Sync
