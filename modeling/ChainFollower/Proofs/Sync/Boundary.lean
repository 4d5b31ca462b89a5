import ChainFollower.Proofs.Sync.Cancelling
import ChainFollower.Proofs.Sync.Lockstep

/-!
# Stopping on the boundary of a decision

Whenever a run is cancelled, it makes the first calls of the run that nobody cancels, each of
them as a whole and at most one of them after it is cancelled, and ends without an error unless
its start is refused, a request or a call fails, or a request is answered with a misplaced
block.  This holds of an engine with any handler and of a follower with its books.
-/

namespace ChainFollower.Sync

variable {σ ω : Type} {calm : Surroundings ω} {handler : Handler ω}
  {watching : Handler (Watched ω)} {moment : Moment} {start final : Int64}

namespace Engine

/-- The calls of a run that are made after it is cancelled. -/
def lateCalls (around : Surroundings σ) (handler : Handler σ) (start final : Int64)
    (fuel : Nat) (engine : Engine) (world : σ) : List Call :=
  engine.trail (fun machine => (machine.lateCall? around).toList) around handler start final fuel
    world

/-- What the run of an engine may fail with although it is cancelled: the status request that
settles its start fails, or one of its steps makes it fail. -/
inductive Excuse (around : Surroundings σ) (handler : Handler σ) (start final : Int64)
    (engine : Engine) (world : σ) : SyncError → Prop
  | unsettled (error : SyncError) (unset : start = -1)
      (answer : (around.status world).1 = some (.error error)) :
      Excuse around handler start final engine world error
  | step (first failing : Machine σ) (error : SyncError)
      (settled : Machine.settle around start ⟨engine, 0, world⟩ = .running first)
      (reached : Machine.Reached around handler final first failing)
      (failure : failing.Failing around handler error) :
      Excuse around handler start final engine world error

/-- A run of an engine that is cancelled at a moment stops on the boundary of a decision. -/
structure StopsOnBoundary (calm : Surroundings ω) (handler : Handler ω) (moment : Moment)
    (watching : Handler (Watched ω)) (start final : Int64) (fuel : Nat) (engine : Engine)
    (world : Watched ω) : Prop where
  /-- Its calls are the first ones of the run that nobody cancels. -/
  calls : engine.calls (calm.cutAt moment) watching start final fuel world <+:
    engine.calls calm handler start final fuel world.world
  late : (engine.lateCalls (calm.cutAt moment) watching start final fuel world).length ≤ 1
  /-- What calls leave behind is there of each of its calls, and of nothing else. -/
  complete : ∀ (κ : Type) (kept : ω → κ) (record : κ → Call → κ),
    (∀ value, calm.Keeps fun world => kept world = value) →
    (∀ call world, kept (handler.carry call world).2 = record (kept world) call) →
    kept (engine.sync (calm.cutAt moment) watching start final fuel world).2.world.world =
      (engine.calls (calm.cutAt moment) watching start final fuel world).foldl record
        (kept world.world)
  /-- One step after it is cancelled it has ended. -/
  ends : moment.passed
      (engine.sync (calm.cutAt moment) watching start final fuel world).2.world = true →
    ∃ result, (engine.sync (calm.cutAt moment) watching start final (fuel + 1) world).1 =
        some result ∧
      (result = .ok () ∨ ∃ error, result = .error error ∧
        engine.Excuse (calm.cutAt moment) watching start final world error)

/-- A start is settled in the same way, whenever the run is cancelled. -/
theorem settle_bare (uncancelled : ∀ world, calm.cancelled world = false) {engine : Engine}
    {world : Watched ω} {first : Machine (Watched ω)}
    (settled : Machine.settle (calm.cutAt moment) start ⟨engine, 0, world⟩ = .running first) :
    Machine.settle calm start ⟨engine, 0, world.world⟩ = .running first.bare := by
  have cut := Machine.settled_settle (calm.cutAt moment) start engine world
  rw [settled] at cut
  cases cut with
  | given given => exact if_pos given
  | genesis status unset unpassed answer =>
      have heard : (calm.status world.world).1 = some (.ok status) := by
        rcases moment.heard_cases world (world.next (calm.status world.world).2) unpassed with
          heard | ⟨passed, unheard⟩
        · exact (heard _).symm.trans answer
        · cases (unheard (calm.status world.world).1).symm.trans answer
      exact Machine.settle_of_status unset (uncancelled _) heard

/-- What requests leave alone is left alone as well when a run is cancelled. -/
theorem keeps_cutAt {κ : Type} {kept : ω → κ}
    (keeps : ∀ value, calm.Keeps fun world => kept world = value) (moment : Moment) (value : κ) :
    (calm.cutAt moment).Keeps fun watched => kept watched.world = value where
  status watched := (keeps value).status watched.world
  block index ahead watched := (keeps value).block index ahead watched.world
  rest span watched := (keeps value).rest span watched.world

/-- Whenever the run of an engine is cancelled, it stops on the boundary of a decision. -/
theorem stops (uncancelled : ∀ world, calm.cancelled world = false)
    (follows : watching.Follows handler) (moment : Moment) (start final : Int64) (fuel : Nat)
    (engine : Engine) (world : Watched ω) :
    engine.StopsOnBoundary calm handler moment watching start final fuel world where
  calls := by
    cases settled : Machine.settle (calm.cutAt moment) start ⟨engine, 0, world⟩ with
    | ended result last =>
        simp only [calls, settled]
        exact List.nil_prefix
    | running first =>
        simp only [calls, settled, settle_bare uncancelled settled]
        exact Machine.calls_prefix uncancelled follows final fuel first
  late := by
    unfold lateCalls trail
    cases Machine.settle (calm.cutAt moment) start ⟨engine, 0, world⟩ with
    | ended result last => exact Nat.zero_le 1
    | running first => exact Machine.length_lateTrail_le follows fuel first
  complete κ kept record keeps records := by
    have asked : kept ((calm.cutAt moment).status world).2.world = kept world.world :=
      (keeps (kept world.world)).status world.world rfl
    have recorded := Machine.kept_run (keeps_cutAt keeps moment)
      (fun call watched => (congrArg kept (follows.world call watched)).trans
        (records call watched.world)) final fuel
    have settled := Machine.settled_settle (calm.cutAt moment) start engine world
    unfold sync calls
    generalize Machine.settle (calm.cutAt moment) start ⟨engine, 0, world⟩ = progress at settled ⊢
    cases settled with
    | given given => exact recorded _
    | cancelled => rfl
    | unanswered | failed => exact asked
    | genesis status =>
        rw [← asked]
        exact recorded _
  ends passed := by
    cases settled : Machine.settle (calm.cutAt moment) start ⟨engine, 0, world⟩ with
    | running first =>
        simp only [sync, settled] at passed ⊢
        obtain ⟨result, ended, fine | ⟨error, failed, failing, reached, failure⟩⟩ :=
          Machine.exists_result_of_passed fuel first passed
        · exact ⟨result, ended, Or.inl fine⟩
        · exact ⟨result, ended,
            Or.inr ⟨error, failed, .step first failing error settled reached failure⟩⟩
    | ended result last =>
        have way := Machine.settled_settle (calm.cutAt moment) start engine world
        simp only [sync, settled] at way ⊢
        refine ⟨result, rfl, ?_⟩
        cases way with
        | cancelled | unanswered => exact Or.inl rfl
        | failed error unset unpassed answer =>
            exact Or.inr ⟨error, rfl, .unsettled error unset answer⟩

end Engine

/-! ## Followers -/

namespace Follower

/-- The calls of a follower's run that are made after it is cancelled. -/
def lateCalls (follower : Follower) (around : Surroundings σ) (ledger : Ledger σ)
    (start final : Int64) (fuel : Nat) (world : σ) : List Call :=
  follower.trail (fun machine => (machine.lateCall? around).toList) around ledger start final fuel
    world

/-- What the run of a follower may fail with although it is cancelled: its start is refused, or
its engine fails. -/
inductive Excuse (follower : Follower) (around : Surroundings σ) (ledger : Ledger σ)
    (start final : Int64) (world : σ) : SyncError → Prop
  | refused (error : SyncError) (refused : (follower.prepare ledger start world).1 = .error error) :
      Excuse follower around ledger start final world error
  | engine (first : Int64) (engine : Engine) (prepared : σ) (error : SyncError)
      (ready : follower.prepare ledger start world = (.ok (first, engine), prepared))
      (excuse : engine.Excuse around (Follower.handler ledger) first final prepared error) :
      Excuse follower around ledger start final world error

/-- A run of a follower that is cancelled at a moment stops on the boundary of a decision. -/
structure StopsOnBoundary (follower : Follower) (scene : Scene ω) (moment : Moment)
    (start final : Int64) (fuel : Nat) (world : Watched ω) : Prop where
  /-- Its calls are the first ones of the run that nobody cancels. -/
  calls : follower.calls (scene.cutAt moment).around (scene.cutAt moment).ledger start final fuel
      world <+:
    follower.calls scene.around scene.ledger start final fuel world.world
  late : (follower.lateCalls (scene.cutAt moment).around (scene.cutAt moment).ledger start final
    fuel world).length ≤ 1
  /-- The prepared books have a record of each of its calls, and of nothing else. -/
  complete : (scene.cutAt moment).books (follower.sync (scene.cutAt moment).around
      (scene.cutAt moment).ledger start final fuel world).2 =
    (follower.calls (scene.cutAt moment).around (scene.cutAt moment).ledger start final fuel
      world).foldl Books.record
      (scene.books (follower.prepare scene.ledger start world.world).2)
  /-- One step after it is cancelled it has ended. -/
  ends : moment.passed (follower.sync (scene.cutAt moment).around (scene.cutAt moment).ledger
      start final fuel world).2 = true →
    ∃ result, (follower.sync (scene.cutAt moment).around (scene.cutAt moment).ledger start final
        (fuel + 1) world).1 = some result ∧
      (result = .ok () ∨ ∃ error, result = .error error ∧
        follower.Excuse (scene.cutAt moment).around (scene.cutAt moment).ledger start final
          world error)

/-- Whenever the run of a follower is cancelled, it stops on the boundary of a decision. -/
theorem stops {scene : Scene ω} (uncancelled : ∀ world, scene.around.cancelled world = false)
    (follower : Follower) (moment : Moment) (start final : Int64) (fuel : Nat)
    (world : Watched ω) : follower.StopsOnBoundary scene moment start final fuel world := by
  obtain ⟨result, after⟩ := scene.prepare_cutAt moment follower start world
  have books : scene.books (follower.prepare (scene.cutAt moment).ledger start world).2.world =
      scene.books (follower.prepare scene.ledger start world.world).2 := congrArg scene.books after
  cases readiness : follower.prepare (scene.cutAt moment).ledger start world with
  | mk ready prepared =>
      rw [readiness] at result after books
      cases ready with
      | error error =>
          constructor
          · rw [(sync_of_refused readiness final fuel).2]
            exact List.nil_prefix
          · rw [lateCalls, trail, readiness]
            exact Nat.zero_le 1
          · rw [(sync_of_refused readiness final fuel).1, (sync_of_refused readiness final fuel).2]
            exact books
          · intro _
            rw [(sync_of_refused readiness final (fuel + 1)).1]
            exact ⟨.error error, rfl, Or.inr ⟨error, rfl, .refused error (congrArg Prod.fst readiness)⟩⟩
      | ok ready =>
          obtain ⟨first, engine⟩ := ready
          have calm : follower.prepare scene.ledger start world.world =
              (.ok (first, engine), prepared.world) := Prod.ext result.symm after.symm
          have stops := engine.stops uncancelled (scene.follows_cutAt moment) moment first final fuel
            prepared
          constructor
          · rw [calls_of_prepared readiness, calls_of_prepared calm]
            exact stops.calls
          · rw [lateCalls, trail, readiness]
            exact stops.late
          · rw [sync_of_prepared readiness, calls_of_prepared readiness, ← books]
            exact stops.complete Books scene.books Books.record
              (fun value => scene.keeps_books (· = value)) fun call world =>
                (Scene.carry_eq call world).2
          · rw [sync_of_prepared readiness, sync_of_prepared readiness]
            intro passed
            obtain ⟨result, ended, fine | ⟨error, failed, excuse⟩⟩ := stops.ends passed
            · exact ⟨result, ended, Or.inl fine⟩
            · exact ⟨result, ended,
                Or.inr ⟨error, failed, .engine first engine prepared error readiness excuse⟩⟩

end Follower

/-! ## Any run -/

/-- Whenever a run is cancelled, be it that of an engine with any handler or that of a follower
with its books, it stops on the boundary of a decision. -/
theorem stops_on_boundary (moment : Moment) (start final : Int64) (fuel : Nat) :
    (∀ (calm : Surroundings ω) (handler : Handler ω) (watching : Handler (Watched ω)),
      (∀ world, calm.cancelled world = false) → watching.Follows handler →
      ∀ (engine : Engine) (world : Watched ω),
        engine.StopsOnBoundary calm handler moment watching start final fuel world) ∧
    ∀ scene : Scene ω, (∀ world, scene.around.cancelled world = false) →
      ∀ (follower : Follower) (world : Watched ω),
        follower.StopsOnBoundary scene moment start final fuel world := by
  constructor
  · intro calm handler watching uncancelled follows engine world
    exact Engine.stops uncancelled follows moment start final fuel engine world
  · intro scene uncancelled follower world
    exact Follower.stops uncancelled follower moment start final fuel world

/-- A run that is cancelled while its first block is asked for, and gets it all the same, makes
one call after that; and so it goes with a follower. -/
theorem stops_on_boundary_wavering :
    seededEngine.calls (wavering.cutAt ⟨2, false⟩) willing.watched 2 2 5 ⟨(), 0⟩ =
        [.removed ⟨1, "b"⟩] ∧
      seededEngine.StopsOnBoundary wavering willing ⟨2, false⟩ willing.watched 2 2 5 ⟨(), 0⟩ ∧
      indexingFollower.StopsOnBoundary orphanScene ⟨2, false⟩ (-1) 1 5
        ⟨Scene.booksOf Store.firstShelf, 0⟩ := by
  refine ⟨rfl, ?_, ?_⟩
  · exact (stops_on_boundary ⟨2, false⟩ 2 2 5).1 wavering willing willing.watched (fun _ => rfl)
      willing.follows_watched seededEngine ⟨(), 0⟩
  · exact (stops_on_boundary ⟨2, false⟩ (-1) 1 5).2 orphanScene (fun _ => rfl) indexingFollower
      ⟨Scene.booksOf Store.firstShelf, 0⟩

/-- A node that answers every request with the block at index 5. -/
def strayNode : Surroundings Unit where
  cancelled _ := false
  status _ := (some (.ok ⟨⟨9, "x"⟩, 0, ⟨0, "a"⟩, none, []⟩), ())
  block _ _ _ := (some (.ok (some ⟨⟨5, "x"⟩, ⟨4, "w"⟩, 0, [], none⟩)), ())
  rest _ _ := ()

/-- A run may be cancelled while a block is asked for and fail although no request and no call
does: the block is misplaced. -/
theorem misplaced_although_cancelled :
    let run := Engine.standard.sync (strayNode.cutAt ⟨2, false⟩) willing.watched 0 3 2 ⟨(), 0⟩
    Moment.passed ⟨2, false⟩ run.2.world = true ∧
      run.1 = some (.error (.syncer ("got block " ++ BlockId.display ⟨5, "x"⟩ ++
        " instead of index " ++ toString (0 : Int64)))) ∧
      (∀ world, ∃ status, (strayNode.status world).1 = some (.ok status)) ∧
      (∀ index ahead world, ∃ found, (strayNode.block index ahead world).1 = some (.ok found)) ∧
      ∀ call world, (willing.carry call world).1 = .ok () := by
  refine ⟨rfl, rfl, ?_, ?_, ?_⟩
  · intro world
    exact ⟨_, rfl⟩
  · intro index ahead world
    exact ⟨_, rfl⟩
  · intro call world
    cases call <;> rfl

end ChainFollower.Sync
