import ChainFollower.Proofs.Sync.Pairs

/-!
# Moments of cancellation

A run may be cancelled at any moment: before it begins, or during any of the operations that
it is made of, be it a request, a wait or a part of a call of the handler.  A request that is
under way then is given up, or is answered all the same.  `Surroundings.cutAt` has a run that
nobody cancels cancelled at a moment, with the same answers.
-/

namespace ChainFollower.Sync

variable {ω α : Type}

/-- When a run is cancelled. -/
structure Moment where
  /-- The operation during which this happens, counted from 1; 0 is before them all. -/
  operation : Nat
  /-- Whether the request that is under way then is given up. -/
  givesUp : Bool

/-- A world with the number of operations begun in it. -/
structure Watched (ω : Type) where
  world : ω
  operations : Nat

/-- A watched world after another operation. -/
def Watched.next (watched : Watched ω) (world : ω) : Watched ω :=
  ⟨world, watched.operations + 1⟩

/-- Whether this is the world that is watched. -/
def Watched.Watches (watched : Watched ω) (world : ω) : Prop :=
  watched.world = world

namespace Moment

variable {moment : Moment} {watched : Watched ω}

/-- Whether the run has been cancelled. -/
def passed (moment : Moment) (watched : Watched ω) : Bool :=
  moment.operation ≤ watched.operations

/-- What is heard of the answer to a request, given the world after it: cancellation goes
before an answer. -/
def heard (moment : Moment) (before after : Watched ω) (answer : Awaited α) : Awaited α :=
  if moment.passed before || moment.givesUp && moment.passed after then none else answer

/-- What has passed has passed for good. -/
theorem passed_of_le {later : Watched ω} (passed : moment.passed watched = true)
    (le : watched.operations ≤ later.operations) : moment.passed later = true :=
  decide_eq_true (Nat.le_trans (of_decide_eq_true passed) le)

/-- The answer is heard, or the run has been cancelled. -/
theorem heard_cases (moment : Moment) (before after : Watched ω)
    (unpassed : moment.passed before = false) :
    (∀ {α : Type} (answer : Awaited α), moment.heard before after answer = answer) ∨
      moment.passed after = true ∧
        ∀ {α : Type} (answer : Awaited α), moment.heard before after answer = none := by
  unfold heard
  cases given : moment.givesUp && moment.passed after with
  | false =>
      apply Or.inl
      intro α answer
      simp only [unpassed, Bool.or_self, Bool.false_eq_true, if_false]
  | true =>
      apply Or.inr
      refine ⟨((Bool.and_eq_true _ _).mp given).2, ?_⟩
      intro α answer
      simp only [Bool.or_true, if_true]

end Moment

/-- Surroundings in which a run is cancelled at a moment. -/
def Surroundings.cutAt (around : Surroundings ω) (moment : Moment) : Surroundings (Watched ω) where
  cancelled watched := moment.passed watched
  status watched :=
    let (answer, world) := around.status watched.world
    (moment.heard watched (watched.next world) answer, watched.next world)
  block index ahead watched :=
    let (answer, world) := around.block index ahead watched.world
    (moment.heard watched (watched.next world) answer, watched.next world)
  rest span watched := watched.next (around.rest span watched.world)

section

variable (around : Surroundings ω) (moment : Moment) (watched : Watched ω)

@[simp] theorem Surroundings.cancelled_cutAt :
    (around.cutAt moment).cancelled watched = moment.passed watched := rfl

@[simp] theorem Surroundings.status_cutAt :
    (around.cutAt moment).status watched =
      (moment.heard watched (watched.next (around.status watched.world).2)
        (around.status watched.world).1, watched.next (around.status watched.world).2) := rfl

@[simp] theorem Surroundings.rest_cutAt (span : Duration) :
    (around.cutAt moment).rest span watched = watched.next (around.rest span watched.world) := rfl

end

/-- A scene in which a run is cancelled at a moment; every use of the books is an operation. -/
def Scene.cutAt (scene : Scene ω) (moment : Moment) : Scene (Watched ω) where
  around := scene.around.cutAt moment
  books watched := scene.books watched.world
  withBooks watched books := watched.next (scene.withBooks watched.world books)
  books_withBooks watched books := scene.books_withBooks watched.world books
  books_status watched := scene.books_status watched.world
  books_block index ahead watched := scene.books_block index ahead watched.world
  books_rest span watched := scene.books_rest span watched.world

/-- A handler does in a watched world what another does in the world: it makes the same of
every call, in any number of operations. -/
structure Handler.Follows (watching : Handler (Watched ω)) (handler : Handler ω) : Prop where
  result : ∀ call watched,
    (watching.carry call watched).1 = (handler.carry call watched.world).1
  world : ∀ call watched,
    (watching.carry call watched).2.world = (handler.carry call watched.world).2
  operations : ∀ call watched,
    watched.operations ≤ (watching.carry call watched).2.operations

/-- A handler for a watched world, each of whose calls is one operation. -/
def Handler.watched (handler : Handler ω) : Handler (Watched ω) where
  added block watched :=
    let (result, world) := handler.added block watched.world
    (result, watched.next world)
  removed id watched :=
    let (result, world) := handler.removed id watched.world
    (result, watched.next world)

theorem Handler.follows_watched (handler : Handler ω) : handler.watched.Follows handler where
  result call watched := by cases call <;> rfl
  world call watched := by cases call <;> rfl
  operations call watched := by cases call <;> exact Nat.le_add_right _ 1

namespace Scene

variable (scene : Scene ω) (moment : Moment)

/-- The ledger does in a watched world what it does in the world. -/
theorem pairs_cutAt : (scene.cutAt moment).ledger.Pairs scene.ledger Watched.Watches where
  setStart := by
    rintro watched _ start rfl
    exact ⟨rfl, rfl⟩
  head := by
    rintro watched _ rfl
    exact ⟨rfl, rfl⟩
  recent := by
    rintro watched _ rfl
    exact ⟨rfl, rfl⟩
  add := by
    rintro watched _ block rfl
    exact ⟨rfl, rfl⟩
  remove := by
    rintro watched _ id rfl
    exact ⟨rfl, rfl⟩
  logAddition := by
    rintro watched _ block rfl
    rfl
  logRemoval := by
    rintro watched _ id rfl
    rfl
  count := by
    rintro watched _ name delta rfl
    rfl

/-- A call of the books is carried out in one operation or more. -/
theorem operations_cutAt (call : Call) (watched : Watched ω) :
    watched.operations ≤ ((scene.cutAt moment).handler.carry call watched).2.operations := by
  cases call with
  | added block =>
      change watched.operations ≤
        (Follower.added (scene.cutAt moment).ledger block watched).2.operations
      cases stored : ((scene.cutAt moment).ledger.add block watched).1 with
      | error error =>
          rw [Follower.added_of_error stored]
          exact Nat.le_add_right _ 1
      | ok =>
          rw [Follower.added_of_ok stored]
          exact Nat.le_add_right _ 5
  | removed id =>
      change watched.operations ≤
        (Follower.removed (scene.cutAt moment).ledger id watched).2.operations
      cases stored : ((scene.cutAt moment).ledger.remove id watched).1 with
      | error error =>
          rw [Follower.removed_of_error stored]
          exact Nat.le_add_right _ 1
      | ok =>
          rw [Follower.removed_of_ok stored]
          exact Nat.le_add_right _ 3

/-- The books record a call in the same way, whenever the run is cancelled. -/
theorem follows_cutAt : (scene.cutAt moment).handler.Follows scene.handler where
  result call _ := ((scene.pairs_cutAt moment).handler call rfl).1
  world call _ := ((scene.pairs_cutAt moment).handler call rfl).2
  operations call watched := scene.operations_cutAt moment call watched

/-- The books are prepared in the same way, whenever the run is cancelled. -/
theorem prepare_cutAt (follower : Follower) (start : Int64) (watched : Watched ω) :
    (follower.prepare (scene.cutAt moment).ledger start watched).1 =
        (follower.prepare scene.ledger start watched.world).1 ∧
      (follower.prepare (scene.cutAt moment).ledger start watched).2.world =
        (follower.prepare scene.ledger start watched.world).2 := by
  by_cases refused : start < -1
  · unfold Follower.prepare
    rw [if_pos refused, if_pos refused]
    exact ⟨rfl, rfl⟩
  · exact (scene.pairs_cutAt moment).prepare refused rfl

end Scene

end ChainFollower.Sync
