import ChainFollower.Proofs.Sync.Agenda
import ChainFollower.Proofs.Sync.Replay

/-!
# Interrupted runs

Against a remote node with a chain without gaps, a run may be cut short after any decision
and be started again from the database that it leaves, time and again.  If a run that is not
cut short ends well, so does the last of these, with the same decisions altogether and the
same database.
-/

namespace ChainFollower.Sync

open Scene (followingIndex toInt_followingIndex)
open Store (Database Holds Worker)

variable {σ τ : Type} {scene : Scene σ} {lastScene : Scene τ} {remote : Int64 → Option Block}
  {genesis tip final : Int64} {stale shared chain : List Block} {follower : Follower}
  {database first between : Database} {world after : σ} {machine : Machine σ} {calls : List Call}

/-! ## Databases between runs -/

/-- A world that a run can start in, with a database none of whose accesses fails, and with
as many blocks handed out as a window has, for which there is room if there are any. -/
structure Scene.Reopens (scene : Scene σ) (database : Database) (world : σ) : Prop where
  database_eq : (scene.shelf world).session.database = database
  reliable : (scene.shelf world).session.fault = fun _ _ => none
  takes : Engine.defaultWindowLimit ≤ (scene.shelf world).store.cacheSize.toNat
  room : ¬Holds [] database → (scene.shelf world).store.HasRoom

theorem Scene.Reopens.holdsAt (reopens : scene.Reopens database world)
    (holds : Holds chain database)
    (proper : ∀ block ∈ chain,
      0 ≤ block.id.index.toInt ∧ block.id.index.toInt < 9223372036854775807) :
    scene.HoldsAt chain world where
  sound number request _ := by rw [reopens.reliable]
  holds := reopens.database_eq ▸ holds
  proper := proper

theorem Scene.Reopens.room_of_holds (reopens : scene.Reopens database world)
    (holds : Holds chain database) (nonempty : chain ≠ []) :
    (scene.shelf world).store.HasRoom := by
  refine reopens.room fun empty => ?_
  have sameHead := holds.head.symm.trans empty.head
  cases chain with
  | nil => exact nonempty rfl
  | cons newest older => cases sameHead

/-- A database from which a run goes on, with strangers above blocks that agree with the
remote chain. -/
structure Paused (remote : Int64 → Option Block) (genesis final : Int64)
    (stale shared : List Block) (database : Database) : Prop
    extends Standing remote genesis final stale shared where
  holds : Holds (stale ++ shared) database
  /-- Indices are natural numbers with a successor. -/
  proper : ∀ block ∈ stale ++ shared,
    0 ≤ block.id.index.toInt ∧ block.id.index.toInt < 9223372036854775807

/-- Indices of a chain below the end are natural numbers with a successor. -/
theorem Contiguous.proper (contiguous : Contiguous genesis chain) (holds : Holds chain database)
    (rules : RemoteChain remote genesis tip) (within : final ≤ tip)
    (ahead : ∀ newest ∈ chain.head?, newest.id.index < final) {block : Block}
    (member : block ∈ chain) :
    0 ≤ block.id.index.toInt ∧ block.id.index.toInt < 9223372036854775807 := by
  have small := rules.small
  have natural := Int64.le_iff_toInt_le.1 rules.natural
  rw [Int64.toInt_zero] at natural
  have upper : ∀ block ∈ chain, block.id.index.toInt < 9223372036854775807 := by
    intro block member
    have below := holds.toOrderly.lt_of_lt_head ahead block member
    have bound := Int64.lt_iff_toInt_lt.1 (Int64.lt_of_lt_of_le below within)
    omega
  refine ⟨?_, upper block member⟩
  rw [← List.append_nil chain] at contiguous upper
  have lower := contiguous.le_of_mem upper member
  change genesis.toInt ≤ _ at lower
  omega

/-- Below the strangers, a store without gaps agrees with the remote chain. -/
theorem Contiguous.agrees (contiguous : Contiguous genesis (stale ++ shared))
    (rules : RemoteChain remote genesis tip) (splits : Splits remote stale shared)
    (unambiguous : Unambiguous remote (stale ++ shared))
    (orderly : Store.Orderly (stale ++ shared))
    (proper : ∀ block ∈ shared, block.id.index.toInt < 9223372036854775807) :
    Agrees remote genesis.toInt (followingIndex genesis shared).toInt shared := by
  cases shared with
  | nil => exact Agrees.empty remote _
  | cons newest older =>
      obtain ⟨oldest, isOldest⟩ := Option.isSome_iff_exists.1
        (List.getLast?_isSome.2 (List.cons_ne_nil newest older))
      have founded : oldest.id.index = genesis := by
        refine contiguous.founded ?_
        rwa [List.getLast?_append_of_ne_nil _ (List.cons_ne_nil _ _)]
      have agrees := (splits.agrees rules unambiguous orderly rfl isOldest).1
      rwa [founded, ← toInt_followingIndex genesis older (proper newest List.mem_cons_self)]
        at agrees

/-- Above a head below the end, the end is not passed. -/
theorem followingIndex_le (some : chain ≠ [])
    (proper : ∀ block ∈ chain, block.id.index.toInt < 9223372036854775807)
    (ahead : ∀ newest ∈ chain.head?, newest.id.index < final) :
    (followingIndex genesis chain).toInt ≤ final.toInt := by
  cases chain with
  | nil => exact absurd rfl some
  | cons newest older =>
      have less := Int64.lt_iff_toInt_lt.1 (ahead newest rfl)
      rw [toInt_followingIndex _ _ (proper newest List.mem_cons_self)]
      omega

/-- A store without gaps below the end can be gone on from. -/
theorem exists_paused (rules : RemoteChain remote genesis tip) (within : final ≤ tip)
    (holds : Holds chain database) (contiguous : Contiguous genesis chain)
    (unambiguous : Unambiguous remote chain)
    (ahead : ∀ newest ∈ chain.head?, newest.id.index < final) :
    ∃ stale shared, chain = stale ++ shared ∧
      Paused remote genesis final stale shared database := by
  have proper : ∀ block ∈ chain,
      0 ≤ block.id.index.toInt ∧ block.id.index.toInt < 9223372036854775807 :=
    fun block member => contiguous.proper holds rules within ahead member
  have notPast : chain ≠ [] → (followingIndex genesis chain).toInt ≤ final.toInt :=
    fun some => followingIndex_le some (fun block member => (proper block member).2) ahead
  obtain ⟨stale, shared, rfl, splits⟩ := exists_splits rules chain
  have agrees := contiguous.agrees rules splits unambiguous holds.toOrderly
    fun block member => (proper block (List.mem_append_right _ member)).2
  refine ⟨stale, shared, rfl, ⟨splits.strangers unambiguous, agrees, contiguous, ?_,
    fun some => notPast (List.append_ne_nil_of_left_ne_nil some _)⟩, holds, proper⟩
  by_cases empty : stale ++ shared = []
  · rw [empty]
    exact Int.le_max_left _ _
  · have reached := notPast empty
    omega

namespace Paused

variable (paused : Paused remote genesis final stale shared database)
  (reopens : scene.Reopens database world)

include paused reopens

theorem holdsAt : scene.HoldsAt (stale ++ shared) world :=
  reopens.holdsAt paused.holds paused.proper

theorem room : stale ++ shared ≠ [] → (scene.shelf world).store.HasRoom :=
  reopens.room_of_holds paused.holds

/-- Once it goes on, a run is underway. -/
theorem underway (tame : ∀ worker ∈ follower.workers, worker.Tame)
    (resumed : scene.Resumed follower (stale ++ shared) (followingIndex genesis (stale ++ shared))
      world machine) : Underway scene remote genesis final stale shared machine where
  toLockstep := resumed.lockstep (paused.holdsAt reopens) tame
    (Scene.lt_followingIndex genesis paused.proper)
  toStanding := paused.toStanding
  next_eq := congrArg Engine.next resumed.engine_eq
  bounded more := absurd resumed.spent more

/-- Its window reaches down to all strangers if they are not too many. -/
theorem covered (few : stale.length ≤ Engine.defaultWindowLimit)
    (resumed : scene.Resumed follower (stale ++ shared) (followingIndex genesis (stale ++ shared))
      world machine) : stale.length ≤ machine.engine.window.length := by
  have length := paused.contiguous.length_window
    (fun block member => (paused.proper block member).2) follower reopens.takes
  rw [List.length_append] at length
  rw [resumed.engine_eq]
  exact Nat.le_trans (Nat.le_min.2 ⟨few, Nat.le_add_right _ _⟩) length

/-- A run that nobody cancels and that ends well has been given an end. -/
theorem given_of_ok (rules : RemoteChain remote genesis tip)
    (fixed : scene.Fixed remote genesis tip) {fuel : Nat}
    (ended : follower.sync scene.around scene.ledger (-1) final fuel world =
      (some (.ok ()), after)) : final ≠ -1 := by
  obtain ⟨machine, resumed⟩ :=
    fixed.exists_resumed rules follower (paused.holdsAt reopens) (paused.room reopens)
  obtain ⟨last, ran⟩ := resumed.run_of_sync ended
  exact Machine.given_of_ok fixed.uncancelled ran

variable (tame : ∀ worker ∈ follower.workers, worker.Tame)

include tame

/-- However far a run gets, it carries out the first of the decisions that are left. -/
theorem run (unbroken : Unbroken remote genesis tip final)
    (faithful : scene.Faithful remote genesis tip)
    (few : stale.length ≤ Engine.defaultWindowLimit) (fuel : Nat) :
    ∃ left grown,
      follower.calls scene.around scene.ledger (-1) final fuel world ++
        agenda remote genesis final left grown = agenda remote genesis final stale shared ∧
      left <:+ stale ∧ Paused remote genesis final left grown (scene.shelf
        (follower.sync scene.around scene.ledger (-1) final fuel world).2).session.database := by
  have holdsAt := paused.holdsAt reopens
  rcases faithful.exists_resumed unbroken.rules follower holdsAt (paused.room reopens) with
    ⟨machine, resumed⟩ | none
  · obtain ⟨left, grown, same, suffix, standing, keeps, -⟩ :=
      (paused.underway reopens tame resumed).run unbroken faithful
        (paused.covered reopens few resumed) fuel
    rw [resumed.calls_eq, resumed.sync_eq]
    refine ⟨left, grown, same, suffix, standing, keeps.kept, fun block member => ?_⟩
    rcases List.mem_append.1 member with member | member
    · exact paused.proper block (List.mem_append_left _ (suffix.subset member))
    · obtain ⟨index, -, -, found⟩ := (standing.agrees block).1 member
      exact unbroken.rules.proper found
  · refine ⟨stale, shared, ?_, List.suffix_rfl, ?_⟩
    · rw [none]
      rfl
    · rw [Scene.database_sync follower holdsAt reopens.reliable, none, reopens.database_eq]
      exact paused

variable (fixed : scene.Fixed remote genesis tip)

include fixed

/-- Nobody cuts a run against a fixed node short: if it ends well, it has carried out all
decisions, and has had few strangers to take back. -/
theorem of_ok (unbroken : Unbroken remote genesis tip final) {fuel : Nat}
    (ended : follower.sync scene.around scene.ledger (-1) final fuel world =
      (some (.ok ()), after)) :
    stale.length ≤ Engine.defaultWindowLimit ∧
      follower.calls scene.around scene.ledger (-1) final fuel world =
        agenda remote genesis final stale shared := by
  obtain ⟨machine, resumed⟩ := fixed.exists_resumed unbroken.rules follower
    (paused.holdsAt reopens) (paused.room reopens)
  have underway := paused.underway reopens tame resumed
  obtain ⟨last, ran⟩ := resumed.run_of_sync ended
  obtain ⟨covered, same⟩ := underway.run_of_ok unbroken fixed.faithful fixed.uncancelled ran
  exact ⟨covered.trans (underway.limit ▸ underway.limited),
    (resumed.calls_eq final fuel).trans same⟩

/-- With few strangers to take back, it ends well. -/
theorem exists_ok (unbroken : Unbroken remote genesis tip final)
    (paced : follower.concurrency.toNat * 16 < 4611686018427387904)
    (few : stale.length ≤ Engine.defaultWindowLimit) :
    ∃ steps after, ∀ more, follower.sync scene.around scene.ledger (-1) final (steps + more)
      world = (some (.ok ()), after) := by
  obtain ⟨machine, resumed⟩ := fixed.exists_resumed unbroken.rules follower
    (paused.holdsAt reopens) (paused.room reopens)
  have pace : Paced machine.engine := by
    rw [resumed.engine_eq]
    exact startEngine_paced (scene.shelf world).store.cacheSize (stale ++ shared) paced
  obtain ⟨steps, last, ran⟩ := (paused.underway reopens tame resumed).exists_ok unbroken fixed
    resumed.spent pace (paused.covered reopens few resumed)
  refine ⟨steps, last.world, fun more => ?_⟩
  rw [resumed.sync_eq, ran]

end Paused

/-! ## Run after run -/

/-- The calls that some runs make one after another, and the database that they leave.  Each
run takes place in a world of its own, against the same chain, and is cut short anywhere;
its database is the one that the run before it has left. -/
inductive Interrupted (follower : Follower) (remote : Int64 → Option Block)
    (genesis tip final : Int64) (first : Database) : List Call → Database → Prop
  | none : Interrupted follower remote genesis tip final first [] first
  | run {σ : Type} {scene : Scene σ} {world : σ} {calls : List Call} {between : Database}
      (interrupted : Interrupted follower remote genesis tip final first calls between)
      (faithful : scene.Faithful remote genesis tip) (reopens : scene.Reopens between world)
      (fuel : Nat) :
      Interrupted follower remote genesis tip final first
        (calls ++ follower.calls scene.around scene.ledger (-1) final fuel world)
        (scene.shelf (follower.sync scene.around scene.ledger (-1) final fuel
          world).2).session.database

/-- Together, they carry out the first of the decisions that are left, and leave what one
run would leave. -/
theorem Interrupted.paused
    (interrupted : Interrupted follower remote genesis tip final first calls between)
    (tame : ∀ worker ∈ follower.workers, worker.Tame)
    (unbroken : Unbroken remote genesis tip final)
    (paused : Paused remote genesis final stale shared first)
    (few : stale.length ≤ Engine.defaultWindowLimit) :
    ∃ left grown,
      calls ++ agenda remote genesis final left grown = agenda remote genesis final stale shared ∧
      left.length ≤ Engine.defaultWindowLimit ∧
      Paused remote genesis final left grown between ∧
      between = recorded follower.workers calls first := by
  induction interrupted with
  | none => exact ⟨stale, shared, rfl, few, paused, rfl⟩
  | @run σ scene world calls between _ faithful reopens fuel ih =>
      obtain ⟨left, grown, same, fewer, pausedBetween, database⟩ := ih
      obtain ⟨rest, further, sameRest, suffix, pausedAfter⟩ :=
        pausedBetween.run reopens tame unbroken faithful fewer fuel
      refine ⟨rest, further, ?_, suffix.length_le.trans fewer, pausedAfter, ?_⟩
      · rw [List.append_assoc, sameRest, same]
      · rw [recorded_append, ← database, ← reopens.database_eq]
        exact scene.database_sync follower (pausedBetween.holdsAt reopens) reopens.reliable final
          fuel

/-- Against a remote node with a chain without gaps, let a run from a store without gaps end
well.  If runs from the same database are cut short, any number of them and anywhere, then a
last run that is not cut short ends well too; together, they have made the same decisions in
the same order, and they leave the same database. -/
theorem restarts_transparent {fuel : Nat} {last : τ}
    (tame : ∀ worker ∈ follower.workers, worker.Tame)
    (paced : follower.concurrency.toNat * 16 < 4611686018427387904)
    (rules : RemoteChain remote genesis tip)
    (whole : ∀ index, genesis ≤ index → index ≤ tip → ∃ block, remote index = some block)
    (within : final ≤ tip) (holds : Holds chain database) (contiguous : Contiguous genesis chain)
    (unambiguous : Unambiguous remote chain)
    (ahead : ∀ newest ∈ chain.head?, newest.id.index < final)
    (fixed : scene.Fixed remote genesis tip) (reopens : scene.Reopens database world)
    (ended : follower.sync scene.around scene.ledger (-1) final fuel world =
      (some (.ok ()), after))
    (interrupted : Interrupted follower remote genesis tip final database calls between)
    (fixedLast : lastScene.Fixed remote genesis tip)
    (reopensLast : lastScene.Reopens between last) :
    ∃ steps afterLast, ∀ more,
      follower.sync lastScene.around lastScene.ledger (-1) final (steps + more) last =
        (some (.ok ()), afterLast) ∧
      calls ++ follower.calls lastScene.around lastScene.ledger (-1) final (steps + more) last =
        follower.calls scene.around scene.ledger (-1) final fuel world ∧
      (lastScene.shelf afterLast).session.database = (scene.shelf after).session.database := by
  obtain ⟨stale, shared, rfl, paused⟩ :=
    exists_paused rules within holds contiguous unambiguous ahead
  have unbroken : Unbroken remote genesis tip final :=
    ⟨rules, whole, paused.given_of_ok reopens rules fixed ended, within⟩
  obtain ⟨few, decided⟩ := paused.of_ok reopens tame fixed unbroken ended
  obtain ⟨left, grown, same, fewer, pausedLast, database⟩ :=
    interrupted.paused tame unbroken paused few
  obtain ⟨steps, afterLast, ran⟩ :=
    pausedLast.exists_ok reopensLast tame fixedLast unbroken paced fewer
  refine ⟨steps, afterLast, fun more => ?_⟩
  have decidedLast := (pausedLast.of_ok reopensLast tame fixedLast unbroken (ran more)).2
  have stored := scene.database_sync follower (paused.holdsAt reopens) reopens.reliable final fuel
  have storedLast := lastScene.database_sync follower (pausedLast.holdsAt reopensLast)
    reopensLast.reliable final (steps + more)
  rw [ended, decided, reopens.database_eq] at stored
  rw [ran more, decidedLast, reopensLast.database_eq, database] at storedLast
  refine ⟨ran more, ?_, ?_⟩
  · rw [decidedLast, decided, same]
  · rw [storedLast, stored, ← recorded_append, same]

/-! ## A reorganization that is cut short -/

/-- A scene in which a run is cancelled once so many blocks have been asked for. -/
def Scene.cut (scene : Scene σ) (limit : Nat) : Scene (σ × Nat) where
  around :=
    { cancelled := fun world => scene.around.cancelled world.1 || limit ≤ world.2
      status := fun world => ((scene.around.status world.1).1,
        (scene.around.status world.1).2, world.2)
      block := fun index ahead world => ((scene.around.block index ahead world.1).1,
        (scene.around.block index ahead world.1).2, world.2 + 1)
      rest := fun span world => (scene.around.rest span world.1, world.2) }
  books world := scene.books world.1
  withBooks world new := (scene.withBooks world.1 new, world.2)
  books_withBooks world := scene.books_withBooks world.1
  books_status world := scene.books_status world.1
  books_block index ahead world := scene.books_block index ahead world.1
  books_rest span world := scene.books_rest span world.1

theorem Scene.Fixed.faithful_cut (fixed : scene.Fixed remote genesis tip) (limit : Nat) :
    (scene.cut limit).Faithful remote genesis tip where
  status world := Or.inr (fixed.status world.1)
  block index ahead world := Or.inr (fixed.block index ahead world.1)

theorem Scene.Reopens.cut (reopens : scene.Reopens database world) (limit asked : Nat) :
    (scene.cut limit).Reopens database (world, asked) :=
  ⟨reopens.database_eq, reopens.reliable, reopens.takes, reopens.room⟩

/-- A child of the first block beside the stale one. -/
def branchBlock : Block := ⟨⟨1, "c"⟩, ⟨0, "a"⟩, 0, [], none⟩

/-- The block above it. -/
def topBlock : Block := ⟨⟨2, "d"⟩, ⟨1, "c"⟩, 0, [], none⟩

/-- The chain of the first block and these two. -/
def branchChain (index : Int64) : Option Block :=
  Store.atIndex? index [topBlock, branchBlock, Store.firstBlock]

theorem remoteChain_branchChain : RemoteChain branchChain 0 2 := by
  have branch : (Store.firstShelf.serve (.add branchBlock)).2.Keeps Holds
      [branchBlock, Store.firstBlock] :=
    (Store.firstShelf_keeps.serve_add_child (Json.decode?_encode_bareBlock _ _ _) (by decide)
      (by decide) (by rintro _ ⟨⟩; rfl) (by rintro _ ⟨⟩; decide)).2
  have top := (branch.serve_add_child (Json.decode?_encode_bareBlock topBlock.id topBlock.parent 0)
    (by decide) (by decide) (by rintro _ ⟨⟩; rfl) (by rintro _ ⟨⟩; decide)).2
  exact .ofBlocks top.kept.toOrderly rfl rfl rfl (by decide) (by decide)

theorem unambiguous_branchChain : Unambiguous branchChain [staleBlock, Store.firstBlock] := by
  intro stored member index found foundAt same
  have among := (Store.mem_of_atIndex? foundAt).1
  simp only [List.mem_cons, List.not_mem_nil, or_false] at among
  rcases List.mem_pair.1 member with rfl | rfl <;> rcases among with rfl | rfl | rfl <;>
    first | rfl | exact absurd same (by decide)

theorem whole_branchChain (index : Int64) (lower : 0 ≤ index) (upper : index ≤ 2) :
    ∃ block, branchChain index = some block := by
  have above : 0 ≤ index.toInt := Int64.le_iff_toInt_le.1 lower
  have below : index.toInt ≤ 2 := Int64.le_iff_toInt_le.1 upper
  have place : index.toInt = (0 : Int64).toInt ∨ index.toInt = (1 : Int64).toInt ∨
      index.toInt = (2 : Int64).toInt := by
    change index.toInt = 0 ∨ index.toInt = 1 ∨ index.toInt = 2
    omega
  rcases place with same | same | same
  · exact ⟨Store.firstBlock, by rw [Int64.toInt_inj.1 same]; rfl⟩
  · exact ⟨branchBlock, by rw [Int64.toInt_inj.1 same]; rfl⟩
  · exact ⟨topBlock, by rw [Int64.toInt_inj.1 same]; rfl⟩

/-- A node with that chain. -/
def branchScene : Scene Books :=
  .ofChain ⟨topBlock.id, 0, Store.firstBlock.id, none, []⟩ branchChain

theorem fixed_branchScene : branchScene.Fixed branchChain 0 2 :=
  Scene.fixed_ofChain 0 rfl rfl

/-- The books of the first block and the stale one, over a database. -/
def staleBooks (database : Database) : Books :=
  Scene.booksOf ⟨staleShelf.store, .reliable database⟩

theorem reopens_staleBooks (database : Database) :
    branchScene.Reopens database (staleBooks database) := by
  have cacheSize : (branchScene.shelf (staleBooks database)).store.cacheSize = 20 :=
    cacheSize_staleShelf
  refine ⟨rfl, rfl, ?_, fun _ => Store.BlockStore.hasRoom_iff.2 ?_⟩
  · rw [cacheSize]
    decide
  · rw [cacheSize]
    decide

set_option maxRecDepth 4000 in
/-- A run is cancelled when it has asked for a block and taken the stale one back.  The next
run adds the other blocks, as a single one does. -/
theorem restarts_transparent_branchChain :
    ∃ between, Interrupted indexingFollower branchChain 0 2 2 staleShelf.session.database
        [.removed staleBlock.id] between ∧
      ∃ steps afterLast, ∀ more,
        indexingFollower.sync branchScene.around branchScene.ledger (-1) 2 (steps + more)
          (staleBooks between) = (some (.ok ()), afterLast) ∧
        [.removed staleBlock.id] ++ indexingFollower.calls branchScene.around branchScene.ledger
          (-1) 2 (steps + more) (staleBooks between) =
            [.removed staleBlock.id, .added branchBlock, .added topBlock] ∧
        (branchScene.shelf afterLast).session.database =
          (branchScene.shelf (indexingFollower.sync branchScene.around branchScene.ledger (-1) 2 6
            (staleBooks staleShelf.session.database)).2).session.database := by
  have ended : (indexingFollower.sync branchScene.around branchScene.ledger (-1) 2 6
      (staleBooks staleShelf.session.database)).1 = some (.ok ()) := by rfl
  have decided : indexingFollower.calls branchScene.around branchScene.ledger (-1) 2 6
      (staleBooks staleShelf.session.database) =
        [.removed staleBlock.id, .added branchBlock, .added topBlock] := by rfl
  have cut : indexingFollower.calls (branchScene.cut 1).around (branchScene.cut 1).ledger (-1) 2 3
      (staleBooks staleShelf.session.database, 0) = [.removed staleBlock.id] := by rfl
  have ahead : ∀ newest ∈ [staleBlock, Store.firstBlock].head?, newest.id.index < 2 := by
    rintro _ ⟨⟩
    decide
  have reopens := reopens_staleBooks staleShelf.session.database
  have begun : Interrupted indexingFollower branchChain 0 2 2 staleShelf.session.database []
    staleShelf.session.database := .none
  have taken := begun.run (fixed_branchScene.faithful_cut 1) (reopens.cut 1 0) 3
  rw [cut, List.nil_append] at taken
  obtain ⟨between, interrupted⟩ : ∃ between, Interrupted indexingFollower branchChain 0 2 2
    staleShelf.session.database [.removed staleBlock.id] between := ⟨_, taken⟩
  refine ⟨between, interrupted, ?_⟩
  obtain ⟨steps, afterLast, transparent⟩ := restarts_transparent tame_indexingFollower (by decide)
    remoteChain_branchChain whole_branchChain (by decide) staleShelf_keeps.kept
    ⟨rfl, rfl, trivial⟩ unambiguous_branchChain ahead fixed_branchScene reopens
    (Prod.ext_iff.2 ⟨ended, rfl⟩) interrupted fixed_branchScene (reopens_staleBooks _)
  refine ⟨steps, afterLast, fun more => ?_⟩
  obtain ⟨ran, same, stored⟩ := transparent more
  exact ⟨ran, same.trans decided, stored⟩

/-! ## Restarts without room -/

/-- Books over a database, from which more blocks are to be handed out than there can be room
for. -/
def crowdedBooks (database : Database) : Books :=
  Scene.booksOf ⟨⟨[], 2305843009213693952⟩, .reliable database⟩

/-- As long as no block is stored, no room is needed. -/
theorem reopens_crowdedBooks :
    branchScene.Reopens (.empty .volatile) (crowdedBooks (.empty .volatile)) where
  database_eq := rfl
  reliable := rfl
  takes := show Engine.defaultWindowLimit ≤ (2305843009213693952 : UInt64).toNat by decide
  room stored := absurd (Holds.empty .volatile) stored

set_option maxRecDepth 4000 in
/-- A run from the empty store ends well, but not one that follows on a run that is cancelled
after the first block. -/
theorem restarts_panic_crowdedBooks :
    (2305843009213693952 : UInt64).toNat < 4611686018427387904 ∧
      RemoteChain branchChain 0 2 ∧ branchScene.Fixed branchChain 0 2 ∧
      branchScene.Reopens (.empty .volatile) (crowdedBooks (.empty .volatile)) ∧
      (∃ after, indexingFollower.sync branchScene.around branchScene.ledger (-1) 2 6
        (crowdedBooks (.empty .volatile)) = (some (.ok ()), after)) ∧
      ∃ between,
        Interrupted indexingFollower branchChain 0 2 2 (.empty .volatile) [.added Store.firstBlock]
          between ∧
        ∀ fuel, (indexingFollower.sync branchScene.around branchScene.ledger (-1) 2 fuel
          (crowdedBooks between)).1 = some (.error (.panicked "capacity overflow")) := by
  have begun : Interrupted indexingFollower branchChain 0 2 2 (.empty .volatile) []
    (.empty .volatile) := .none
  have taken := begun.run (fixed_branchScene.faithful_cut 1) (reopens_crowdedBooks.cut 1 0) 3
  have cut : indexingFollower.calls (branchScene.cut 1).around (branchScene.cut 1).ledger (-1) 2 3
      (crowdedBooks (.empty .volatile), 0) = [.added Store.firstBlock] := by rfl
  rw [cut, List.nil_append] at taken
  refine ⟨by decide, remoteChain_branchChain, fixed_branchScene, reopens_crowdedBooks, ⟨_, rfl⟩,
    _, taken, fun fuel => rfl⟩

end ChainFollower.Sync
