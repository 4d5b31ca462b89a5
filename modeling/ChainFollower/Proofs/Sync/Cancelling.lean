import ChainFollower.Proofs.Sync.Discipline
import ChainFollower.Proofs.Sync.Moments

/-!
# Cancelled runs

A run that is cancelled goes on as if nothing had happened until it looks at the token the
next time, and then ends.  Until then it may make one more call, and a call that it makes is
carried out as a whole.
-/

namespace ChainFollower.Sync

variable {ω : Type} {calm : Surroundings ω} {handler : Handler ω} {watching : Handler (Watched ω)}
  {moment : Moment} {start final : Int64} {machine next : Machine (Watched ω)}

/-- A machine without what is watched. -/
def Machine.bare (machine : Machine (Watched ω)) : Machine ω :=
  ⟨machine.engine, machine.remaining, machine.world.world⟩

def Progress.bare : Progress (Watched ω) → Progress ω
  | .running machine => .running machine.bare
  | .ended result machine => .ended result machine.bare

theorem Machine.bare_of_paired {machine : Machine (Watched ω)} {bare : Machine ω}
    (paired : machine.Paired Watched.Watches bare) :
    bare = machine.bare := by
  obtain ⟨engine, remaining, world⟩ := paired
  rw [Machine.bare, engine, remaining, show machine.world.world = bare.world from world]

/-- A step that goes alike but for what is watched. -/
theorem Progress.bare_of_paired {cut : Progress (Watched ω)} {bare : Progress ω}
    (paired : cut.Paired Watched.Watches bare) : bare = cut.bare := by
  cases paired with
  | running machines => exact congrArg Progress.running (Machine.bare_of_paired machines)
  | ended result machines => exact congrArg (Progress.ended result) (Machine.bare_of_paired machines)

namespace Machine

/-- What becomes of a step is what becomes of it when nobody cancels, or the run is found to be
cancelled. -/
def Beside (moment : Moment) (cut : Progress (Watched ω)) (calm : Progress ω) : Prop :=
  calm = cut.bare ∨ ∃ next, cut = .running next ∧ moment.passed next.world = true

/-- A run that has been cancelled ends. -/
theorem step_of_passed (passed : moment.passed machine.world = true) :
    machine.step (calm.cutAt moment) watching final = .ended (.ok ()) machine.betweenRounds :=
  if_pos passed

theorem call?_of_passed (passed : moment.passed machine.world = true) :
    machine.call? (calm.cutAt moment) = none := by
  have idle : (calm.cutAt moment).cancelled machine.world = true ∨ machine.remaining = 0 :=
    Or.inl passed
  rw [call?, received?, if_pos idle]
  rfl

/-- A run that has been cancelled calls no more. -/
theorem calls_of_passed (passed : moment.passed machine.world = true) (fuel : Nat) :
    machine.calls (calm.cutAt moment) watching final fuel = [] := by
  cases fuel with
  | zero => rfl
  | succ fuel =>
      rw [calls_of_ended (step_of_passed passed), call?_of_passed passed]
      rfl

section

variable (uncancelled : ∀ world, calm.cancelled world = false)
include uncancelled

/-- A machine with nothing to ask for finds that the run is cancelled, or does what it does
when nobody cancels. -/
theorem beside_idle (moment : Moment) (final : Int64) (machine : Machine (Watched ω)) :
    Beside moment (machine.idle (calm.cutAt moment) final) (machine.bare.idle calm final) := by
  cases passed : moment.passed machine.world with
  | true => exact Or.inr ⟨machine, if_pos passed, passed⟩
  | false =>
      apply Or.inl
      by_cases finished : machine.engine.finished final = true
      · simp only [idle, bare, Surroundings.cancelled_cutAt, uncancelled, passed,
          Bool.false_eq_true, if_false, finished, if_true]
        rfl
      · simp only [idle, bare, Surroundings.cancelled_cutAt, uncancelled, passed,
          Bool.false_eq_true, if_false, finished]
        rfl

/-- So does a machine that asks for the status. -/
theorem beside_beginRound (final : Int64) (unpassed : moment.passed machine.world = false) :
    Beside moment (machine.beginRound (calm.cutAt moment) final)
      (machine.bare.beginRound calm final) := by
  have idle := beside_idle uncancelled moment final
    (machine.moved (machine.world.next (calm.status machine.world.world).2))
  unfold beginRound
  by_cases negative : machine.engine.next < 0
  · have bareNegative : machine.bare.engine.next < 0 := negative
    rw [if_pos negative, if_pos bareNegative]
    exact Or.inl rfl
  have bareNatural : ¬machine.bare.engine.next < 0 := negative
  have bareWorld : machine.bare.world = machine.world.world := rfl
  rw [if_neg negative, if_neg bareNatural, Surroundings.status_cutAt, bareWorld]
  dsimp only
  rcases moment.heard_cases machine.world (machine.world.next (calm.status machine.world.world).2)
      unpassed with heard | ⟨passed, unheard⟩
  · rw [heard]
    cases (calm.status machine.world.world).1 with
    | none => exact idle
    | some result =>
        cases result with
        | error error => exact Or.inl rfl
        | ok status =>
            by_cases behind : Engine.reachable status.current.index final < machine.engine.next
            · simp only [moved, bare, behind, if_true]
              exact idle
            · simp only [moved, bare, behind, if_false]
              exact Or.inl rfl
  · rw [unheard]
    exact Or.inr ⟨_, if_pos passed, passed⟩

end

theorem ask_cutAt (calm : Surroundings ω) (moment : Moment) (machine : Machine (Watched ω)) :
    machine.ask (calm.cutAt moment) =
      (moment.heard machine.world (machine.world.next (machine.bare.ask calm).2)
        (machine.bare.ask calm).1, machine.world.next (machine.bare.ask calm).2) := rfl

section

variable (follows : watching.Follows handler)
include follows

/-- A watched world goes with the world in it. -/
theorem pairs_of_follows :
    watching.Pairs handler Watched.Watches := by
  rintro watched _ call rfl
  exact ⟨follows.result call watched, follows.world call watched⟩

theorem bare_receive (machine : Machine (Watched ω)) (left : Nat) (found : Option Block) :
    machine.bare.receive handler left found = (machine.receive watching left found).bare := by
  have machines : machine.Paired Watched.Watches machine.bare :=
    ⟨rfl, rfl, rfl⟩
  exact Progress.bare_of_paired (machines.receive (pairs_of_follows follows) left found)

/-- A request that is answered is answered as when nobody cancels. -/
theorem bare_fetch (calm : Surroundings ω) (left : Nat)
    (heard : ∀ answer : Awaited (Option Block), moment.heard machine.world
      (machine.world.next (machine.bare.ask calm).2) answer = answer) :
    machine.bare.fetch calm handler left =
      (machine.fetch (calm.cutAt moment) watching left).bare := by
  unfold fetch
  rw [ask_cutAt, heard]
  dsimp only
  cases (machine.bare.ask calm).1 with
  | none => rfl
  | some result =>
      cases result with
      | error error => rfl
      | ok found =>
          exact bare_receive follows (machine.moved
            (machine.world.next (machine.bare.ask calm).2)) left found

end

section

variable (uncancelled : ∀ world, calm.cancelled world = false) (follows : watching.Follows handler)
include uncancelled follows

/-- A step of a run that has not been cancelled is the step of the run that nobody cancels, or
the run is cancelled before the step calls. -/
theorem step_beside (final : Int64) (unpassed : moment.passed machine.world = false) :
    (machine.call? (calm.cutAt moment) = machine.bare.call? calm ∧
        machine.bare.step calm handler final =
          (machine.step (calm.cutAt moment) watching final).bare) ∨
      machine.call? (calm.cutAt moment) = none ∧
        ∃ next, machine.step (calm.cutAt moment) watching final = .running next ∧
          moment.passed next.world = true := by
  cases round : machine.remaining with
  | zero =>
      have bareSpent : machine.bare.remaining = 0 := round
      have silent : machine.call? (calm.cutAt moment) = none := call?_of_spent round
      have stepped : machine.step (calm.cutAt moment) watching final =
          machine.beginRound (calm.cutAt moment) final := by
        simp only [step, round, Surroundings.cancelled_cutAt, unpassed, Bool.false_eq_true,
          if_false]
      have calmly : machine.bare.step calm handler final = machine.bare.beginRound calm final := by
        simp only [step, bareSpent, uncancelled, Bool.false_eq_true, if_false]
      rw [stepped, calmly]
      rcases beside_beginRound uncancelled final unpassed with alike | cut
      · exact Or.inl ⟨silent.trans (call?_of_spent bareSpent).symm, alike⟩
      · exact Or.inr ⟨silent, cut⟩
  | succ left =>
      have bareRound : machine.bare.remaining = left + 1 := round
      have stepped : machine.step (calm.cutAt moment) watching final =
          machine.fetch (calm.cutAt moment) watching left := by
        simp only [step, round, Surroundings.cancelled_cutAt, unpassed, Bool.false_eq_true,
          if_false]
      have calmly : machine.bare.step calm handler final =
          machine.bare.fetch calm handler left := by
        simp only [step, bareRound, uncancelled, Bool.false_eq_true, if_false]
      rw [stepped, calmly]
      rcases moment.heard_cases machine.world
          (machine.world.next (machine.bare.ask calm).2)
          unpassed with heard | ⟨passed, unheard⟩
      · refine Or.inl ⟨?_, bare_fetch follows calm left heard⟩
        have asked : (machine.ask (calm.cutAt moment)).1 = (machine.bare.ask calm).1 := heard _
        simp only [call?, received?, asked, Surroundings.cancelled_cutAt, unpassed, uncancelled]
        rfl
      · have asked : (machine.ask (calm.cutAt moment)).1 = none := unheard _
        refine Or.inr ⟨?_, (machine.moved (machine.asked (calm.cutAt moment))).betweenRounds,
          ?_, passed⟩
        · simp only [call?, received?, asked, ite_self, Option.map_none]
        · simp only [fetch, asked]
          rfl

/-- The calls of a run that is cancelled are the first ones of the run that nobody cancels. -/
theorem calls_prefix (final : Int64) (fuel : Nat) (machine : Machine (Watched ω)) :
    machine.calls (calm.cutAt moment) watching final fuel <+:
      machine.bare.calls calm handler final fuel := by
  induction fuel generalizing machine with
  | zero => exact List.prefix_rfl
  | succ fuel ih =>
      cases passed : moment.passed machine.world with
      | true =>
          rw [calls_of_passed passed]
          exact List.nil_prefix
      | false =>
          rcases step_beside uncancelled follows final passed with
            ⟨called, alike⟩ | ⟨silent, next, stepped, late⟩
          · cases stepped : machine.step (calm.cutAt moment) watching final with
            | running next =>
                rw [stepped] at alike
                rw [calls_of_running stepped, calls_of_running alike, called]
                exact (List.prefix_append_right_inj _).mpr (ih next)
            | ended result last =>
                rw [stepped] at alike
                rw [calls_of_ended stepped, calls_of_ended alike, called]
          · rw [calls_of_running stepped, silent, calls_of_passed late]
            exact List.nil_prefix

end

/-! ## The last call -/

/-- The call that a step makes after the run is cancelled. -/
def lateCall? {σ : Type} (around : Surroundings σ) (machine : Machine σ) : Option Call :=
  if around.cancelled (machine.asked around) then machine.call? around else none

theorem lateTrail_of_passed (passed : moment.passed machine.world = true) (fuel : Nat) :
    machine.trail (fun machine => (machine.lateCall? (calm.cutAt moment)).toList)
      (calm.cutAt moment) watching final fuel = [] := by
  cases fuel with
  | zero => rfl
  | succ fuel =>
      rw [trail_of_ended _ (step_of_passed passed), lateCall?, call?_of_passed passed, ite_self]
      rfl

/-- At most one call is made after a run is cancelled. -/
theorem length_lateTrail_le (follows : watching.Follows handler) (fuel : Nat)
    (machine : Machine (Watched ω)) :
    (machine.trail (fun machine => (machine.lateCall? (calm.cutAt moment)).toList)
      (calm.cutAt moment) watching final fuel).length ≤ 1 := by
  induction fuel generalizing machine with
  | zero => exact Nat.zero_le 1
  | succ fuel ih =>
      cases late : machine.lateCall? (calm.cutAt moment) with
      | none =>
          cases stepped : machine.step (calm.cutAt moment) watching final with
          | running next =>
              rw [trail_of_running _ stepped, late]
              exact ih next
          | ended result last =>
              rw [trail_of_ended _ stepped, late]
              exact Nat.zero_le 1
      | some call =>
          obtain ⟨passed, called⟩ := Option.ite_none_right_eq_some.mp late
          cases result : (watching.carry call (machine.asked (calm.cutAt moment))).1 with
          | error error =>
              rw [trail_of_ended _ (step_of_refused called result), late]
              exact Nat.le_refl 1
          | ok =>
              -- the call itself keeps the run cancelled
              have after : moment.passed
                  (watching.carry call (machine.asked (calm.cutAt moment))).2 = true :=
                Moment.passed_of_le passed (follows.operations call _)
              rw [trail_of_running _ (step_of_granted called result), late,
                lateTrail_of_passed after]
              exact Nat.le_refl 1

/-! ## The result -/

/-- What a step makes a run fail with: a request that fails, a call that fails, or a block of
another index than the one asked for. -/
inductive Failing {σ : Type} (around : Surroundings σ) (handler : Handler σ)
    (machine : Machine σ) : SyncError → Prop
  | status (error : SyncError) (answer : (around.status machine.world).1 = some (.error error)) :
      Failing around handler machine error
  | block (error : SyncError)
      (answer : (machine.ask around).1 = some (.error error)) :
      Failing around handler machine
        (.context ("unable to fetch block " ++ toString machine.engine.next) error)
  | call (call : Call) (error : SyncError) (called : machine.call? around = some call)
      (refused : (handler.carry call (machine.asked around)).1 = .error error) :
      Failing around handler machine error
  | misplaced (block : Block)
      (answer : (machine.ask around).1 = some (.ok (some block)))
      (elsewhere : block.id.index ≠ machine.engine.next) :
      Failing around handler machine (.syncer ("got block " ++ block.id.display ++
        " instead of index " ++ toString machine.engine.next))

/-- A handler that carries out everything and leaves the world alone. -/
def granting {σ : Type} : Handler σ :=
  ⟨fun _ world => (.ok (), world), fun _ world => (.ok (), world)⟩

/-- A run that is found cancelled when it fails has failed because of a request, a call or a
misplaced block. -/
theorem failing_of_ended {error : SyncError} {last : Machine (Watched ω)}
    (stepped : machine.step (calm.cutAt moment) watching final = .ended (.error error) last)
    (passed : moment.passed last.world = true) :
    machine.Failing (calm.cutAt moment) watching error := by
  cases called : machine.call? (calm.cutAt moment) with
  | some call =>
      cases result : (watching.carry call (machine.asked (calm.cutAt moment))).1 with
      | ok => cases stepped.symm.trans (step_of_granted called result)
      | error error =>
          cases stepped.symm.trans (step_of_refused called result)
          exact .call call error called result
  | none =>
      have move := move_step (calm.cutAt moment) granting final machine
      rw [step_congr_handler called watching, stepped] at move
      cases move with
      | unresolved spent negative => cases stepped.symm.trans (step_of_passed passed)
      | statusFailed error spent natural answer => exact .status error answer
      | fetchFailed left error round answer => exact .block error answer
      | misplaced left block round answer elsewhere => exact .misplaced block answer elsewhere
      | addFailed left block error round answer place child refused => cases refused
      | removeFailed left block last error round answer newest other refused => cases refused

/-- A run that has been cancelled ends, without an error unless a step of it failed. -/
theorem exists_result_of_passed (fuel : Nat) (machine : Machine (Watched ω))
    (passed : moment.passed
      (machine.run (calm.cutAt moment) watching final fuel).2.world = true) :
    ∃ result, (machine.run (calm.cutAt moment) watching final (fuel + 1)).1 = some result ∧
      (result = .ok () ∨ ∃ error, result = .error error ∧ ∃ failing,
        Reached (calm.cutAt moment) watching final machine failing ∧
        failing.Failing (calm.cutAt moment) watching error) := by
  induction fuel generalizing machine with
  | zero =>
      have stepped : machine.step (calm.cutAt moment) watching final =
          .ended (.ok ()) machine.betweenRounds := step_of_passed passed
      refine ⟨.ok (), ?_, Or.inl rfl⟩
      rw [run_of_ended stepped]
  | succ fuel ih =>
      cases stepped : machine.step (calm.cutAt moment) watching final with
      | running next =>
          rw [run_of_running stepped] at passed ⊢
          obtain ⟨result, ended, fine | ⟨error, failed, failing, reached, failure⟩⟩ := ih next passed
          · exact ⟨result, ended, Or.inl fine⟩
          · exact ⟨result, ended,
              Or.inr ⟨error, failed, failing, reached.of_step stepped, failure⟩⟩
      | ended result last =>
          rw [run_of_ended stepped] at passed ⊢
          refine ⟨result, rfl, ?_⟩
          cases result with
          | ok => exact Or.inl rfl
          | error error =>
              exact Or.inr ⟨error, rfl, machine, .start, failing_of_ended stepped passed⟩

end Machine

end ChainFollower.Sync
