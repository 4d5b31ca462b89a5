import ChainFollower.Proofs.Sync.Convergence
import ChainFollower.Proofs.Sync.Resumption

/-!
# Repair by restarts

When strangers reach down below its window, a run against a remote node that does not
change takes back the blocks of its window and then fails, since the next block is no
child of the head.  Run again and again, it comes to the end.
-/

namespace ChainFollower.Sync

open Store (Holds Worker)

variable {σ : Type} {scene : Scene σ} {remote : Int64 → Option Block}
  {genesis tip final : Int64} {stale shared chain taken left : List Block} {block head : Block}
  {machine : Machine σ} {follower : Follower} {world after next : σ} {count : Nat}

/-! ## Outcomes of a run -/

/-- A run without a start ends, given enough steps. -/
def Scene.Ends (scene : Scene σ) (follower : Follower) (final : Int64) (world : σ)
    (result : Except SyncError Unit) (after : σ) : Prop :=
  ∃ steps, ∀ fuel, follower.sync scene.around scene.ledger (-1) final (steps + fuel) world =
    (some result, after)

theorem Scene.Ends.unique {result other : Except SyncError Unit}
    (ends : scene.Ends follower final world result after)
    (endsOther : scene.Ends follower final world other next) : result = other ∧ after = next := by
  obtain ⟨steps, ran⟩ := ends
  obtain ⟨stepsOther, ranOther⟩ := endsOther
  have same := ran stepsOther
  rw [Nat.add_comm, ranOther steps] at same
  cases same
  exact ⟨rfl, rfl⟩

/-- A run ends well, with exactly the remote chain through its end in the store. -/
def Settles (scene : Scene σ) (remote : Int64 → Option Block) (follower : Follower)
    (final : Int64) (world : σ) : Prop :=
  ∃ after chain, scene.Ends follower final world (.ok ()) after ∧
    (scene.shelf after).Keeps Holds chain ∧
    ∀ block, block ∈ chain ↔ ∃ index, index ≤ final ∧ remote index = some block

/-- A store that a run can start from, whatever it holds: none but the counters may fail,
at least so many blocks are handed out, and there is room for them. -/
structure Scene.Opens (scene : Scene σ) (least : Nat) (world : σ) : Prop where
  sound : Store.Sound (scene.shelf world).session.fault
  takes : least ≤ (scene.shelf world).store.cacheSize.toNat
  room : (scene.shelf world).store.HasRoom

/-- A run fails because a block is no child of the head, with a chain left that can be
opened again. -/
def Recedes (scene : Scene σ) (follower : Follower) (final : Int64) (left : List Block)
    (world after : σ) : Prop :=
  ∃ block, ∃ head ∈ left.head?, scene.Ends follower final world
      (.error (additionFailure block (.notChildOfHead block.id.display head.id.display))) after ∧
    (scene.shelf after).Keeps Holds left ∧ scene.Opens 1 after

/-! ## One run -/

/-- A store that holds strangers above blocks in common with the remote chain, from its
first index on and below the end.  An empty one needs no room. -/
structure Mendable (scene : Scene σ) (remote : Int64 → Option Block) (genesis final : Int64)
    (stale shared : List Block) (world : σ) : Prop where
  sound : Store.Sound (scene.shelf world).session.fault
  takes : 1 ≤ (scene.shelf world).store.cacheSize.toNat
  room : stale ++ shared ≠ [] → (scene.shelf world).store.HasRoom
  holds : Holds (stale ++ shared) (scene.shelf world).session.database
  proper : ∀ block ∈ stale ++ shared,
    0 ≤ block.id.index.toInt ∧ block.id.index.toInt < 9223372036854775807
  splits : Splits remote stale shared
  unambiguous : Unambiguous remote (stale ++ shared)
  founded : ∀ oldest ∈ (stale ++ shared).getLast?, oldest.id.index = genesis
  ahead : ∀ newest ∈ (stale ++ shared).head?, newest.id.index < final

/-- A run that goes on after a head below its end. -/
theorem Scene.Resumed.resumes {newest : Block}
    (resumed : scene.Resumed follower chain (followingIndex genesis chain) world machine)
    (holdsAt : scene.HoldsAt chain world) (tame : ∀ worker ∈ follower.workers, worker.Tame)
    (paced : Paced machine.engine) (isNewest : newest ∈ chain.head?)
    (ahead : newest.id.index < final) : Resumes scene final newest chain machine := by
  obtain ⟨older, rfl⟩ := List.head?_eq_some_iff.1 isNewest
  have next : machine.engine.next = newest.id.index + 1 := congrArg Engine.next resumed.engine_eq
  have successor : (newest.id.index + 1).toInt = newest.id.index.toInt + 1 :=
    Words.toInt_succ (holdsAt.proper newest List.mem_cons_self).2
  exact ⟨resumed.lockstep holdsAt tame (lt_followingIndex genesis holdsAt.proper), rfl,
    next ▸ successor, resumed.spent, ahead, paced⟩

/-- A machine that converges settles. -/
theorem Converges.settles {first : Int64}
    (converges : Converges scene remote genesis.toInt final machine)
    (rules : RemoteChain remote genesis tip)
    (resumed : scene.Resumed follower chain first world machine) :
    Settles scene remote follower final world := by
  obtain ⟨steps, last, ran, left, keeps, agrees⟩ := converges
  refine ⟨last.world, left, ⟨steps, fun fuel => ?_⟩, keeps, fun block => ?_⟩
  · rw [resumed.sync_eq, ran]
  · rw [agrees block]
    constructor
    · rintro ⟨index, -, below, found⟩
      exact ⟨index, Int64.le_iff_toInt_le.2 (Int.lt_add_one_iff.1 below), found⟩
    · rintro ⟨index, within, found⟩
      exact ⟨index, Int64.le_iff_toInt_le.1 (rules.place found).2.1,
        Int.lt_add_one_iff.2 (Int64.le_iff_toInt_le.1 within), found⟩

/-- A run leaves the settings of the store alone, but for the workers. -/
theorem Scene.Ends.store_eq {first : Int64} {result : Except SyncError Unit}
    (ends : scene.Ends follower final world result after)
    (resumed : scene.Resumed follower chain first world machine) :
    (scene.shelf after).store = { (scene.shelf world).store with workers := follower.workers } := by
  obtain ⟨steps, ran⟩ := ends
  obtain ⟨accesses, shelf⟩ := resumed.shelf_eq
  have same := ran 0
  rw [resumed.sync_eq] at same
  obtain rfl : _ = after := congrArg Prod.snd same
  rw [Scene.store_run, shelf]
  rfl

/-- A machine that stalls recedes. -/
theorem Stalls.recedes {first : Int64} (stalls : Stalls scene final left machine)
    (opens : scene.Opens 1 world)
    (resumed : scene.Resumed follower chain first world machine) :
    ∃ after, Recedes scene follower final left world after := by
  obtain ⟨block, head, steps, last, isHead, ran, keeps⟩ := stalls
  have ends : scene.Ends follower final world (.error (additionFailure block
      (.notChildOfHead block.id.display head.id.display))) last.world :=
    ⟨steps, fun fuel => by rw [resumed.sync_eq, ran]⟩
  have store := ends.store_eq resumed
  exact ⟨last.world, block, head, isHead, ends, keeps, keeps.sound, store ▸ opens.takes,
    store ▸ opens.room⟩

namespace Mendable

variable (mendable : Mendable scene remote genesis final stale shared world)

include mendable

theorem holdsAt : scene.HoldsAt (stale ++ shared) world :=
  ⟨mendable.sound, mendable.holds, mendable.proper⟩

/-- A run settles, or takes strangers back and fails. -/
theorem settles_or_recedes (pursuit : Pursuit scene remote genesis tip final)
    (tame : ∀ worker ∈ follower.workers, worker.Tame)
    (paced : follower.concurrency.toNat * 16 < 4611686018427387904) :
    Settles scene remote follower final world ∨ ∃ taken left after, stale = taken ++ left ∧
      taken ≠ [] ∧ Recedes scene follower final (left ++ shared) world after := by
  obtain ⟨machine, resumed⟩ :=
    pursuit.fixed.exists_resumed pursuit.rules follower mendable.holdsAt mendable.room
  have pace : Paced machine.engine := by
    rw [resumed.engine_eq]
    exact startEngine_paced (scene.shelf world).store.cacheSize (stale ++ shared) paced
  by_cases empty : stale ++ shared = []
  · rw [empty] at resumed
    have lockstep := resumed.lockstep (empty ▸ mendable.holdsAt) tame fun _ none => nomatch none
    have begins : machine.engine.next = genesis := congrArg Engine.next resumed.engine_eq
    have converges := pursuit.converges_of_empty lockstep begins resumed.spent pace
    exact Or.inl (converges.settles pursuit.rules resumed)
  · obtain ⟨newest, older, chain⟩ := List.exists_cons_of_ne_nil empty
    have isNewest : newest ∈ (stale ++ shared).head? := congrArg List.head? chain
    have resumes := resumed.resumes mendable.holdsAt tame pace isNewest
      (mendable.ahead newest isNewest)
    obtain ⟨oldest, isOldest⟩ := Option.isSome_iff_exists.1 (List.getLast?_isSome.2 empty)
    have founded := mendable.founded oldest isOldest
    by_cases some : stale = []
    · subst some
      have converges := pursuit.converges_of_shared resumes mendable.splits
        mendable.unambiguous isOldest
      rw [founded] at converges
      exact Or.inl (converges.settles pursuit.rules resumed)
    · obtain ⟨top, pending⟩ := mendable.splits.exists_pending pursuit.rules mendable.unambiguous
        resumes some isOldest
      rw [founded] at pending
      rcases pursuit.converges_or_stalls pending with
        converges | ⟨taken, left, rfl, length, stalls⟩
      · exact Or.inl (converges.settles pursuit.rules resumed)
      · obtain ⟨after, recedes⟩ := stalls.recedes
          ⟨mendable.sound, mendable.takes, mendable.room empty⟩ resumed
        refine Or.inr ⟨taken, left, after, rfl, ?_, recedes⟩
        rintro rfl
        have window : machine.engine.window.head? = .some newest.id := by
          rw [resumed.engine_eq, chain]
          exact head?_startEngine follower mendable.takes newest older
        rw [List.length_eq_zero_iff.1 length.symm] at window
        cases window

end Mendable

/-- What is left can be mended again. -/
theorem Mendable.of_left
    (mendable : Mendable scene remote genesis final (taken ++ left) shared world)
    (opens : scene.Opens 1 next)
    (holds : Holds (left ++ shared) (scene.shelf next).session.database) :
    Mendable scene remote genesis final left shared next := by
  obtain ⟨-, -, -, holdsAll, proper, splits, unambiguous, founded, ahead⟩ := mendable
  rw [List.append_assoc] at holdsAll proper unambiguous founded ahead
  have below : ∀ block ∈ left ++ shared, block.id.index < final := by
    intro block member
    exact holdsAll.toOrderly.lt_of_lt_head ahead block (List.mem_append_right taken member)
  refine ⟨opens.sound, opens.takes, fun _ => opens.room, holds, fun block member => proper block (List.mem_append_right _ member),
    ⟨fun block member => splits.strange block (List.mem_append_right _ member), splits.common⟩,
    fun block member => unambiguous block (List.mem_append_right _ member),
    fun oldest isOldest => founded oldest ?_,
    fun newest isNewest => below newest (List.mem_of_mem_head? isNewest)⟩
  have some : left ++ shared ≠ [] := List.ne_nil_of_mem (List.mem_of_getLast? isOldest)
  rwa [List.getLast?_append_of_ne_nil _ some]

/-! ## Run after run -/

/-- The worlds that a run may start from after some runs from the first one have failed: the
database is that which the last of them has left. -/
inductive Failures (scene : Scene σ) (follower : Follower) (final : Int64) (first : σ) :
    Nat → σ → Prop
  | none : Failures scene follower final first 0 first
  | failed {count : Nat} {world after next : σ} {error : SyncError}
      (failures : Failures scene follower final first count world)
      (ends : scene.Ends follower final world (.error error) after)
      (database : (scene.shelf next).session.database = (scene.shelf after).session.database)
      (opens : scene.Opens 1 next) : Failures scene follower final first (count + 1) next

/-- Every failed run has taken strangers back. -/
theorem Failures.exists_left {later : σ}
    (failures : Failures scene follower final world count later)
    (mendable : Mendable scene remote genesis final stale shared world)
    (pursuit : Pursuit scene remote genesis tip final)
    (tame : ∀ worker ∈ follower.workers, worker.Tame)
    (paced : follower.concurrency.toNat * 16 < 4611686018427387904) :
    ∃ taken left, stale = taken ++ left ∧ count ≤ taken.length ∧
      Mendable scene remote genesis final left shared later := by
  induction failures with
  | none => exact ⟨[], stale, rfl, Nat.le_refl _, mendable⟩
  | failed _ ends database opens ih =>
      obtain ⟨taken, left, rfl, most, mendableLeft⟩ := ih
      rcases mendableLeft.settles_or_recedes pursuit tame paced with
        ⟨_, _, settles, -⟩ | ⟨more, rest, after, rfl, some, block, head, -, recedes, keeps, -⟩
      · cases (ends.unique settles).1
      · obtain ⟨-, rfl⟩ := ends.unique recedes
        have least := List.length_pos_iff.2 some
        refine ⟨taken ++ more, rest, (List.append_assoc _ _ _).symm, ?_,
          mendableLeft.of_left opens (database ▸ keeps.kept)⟩
        rw [List.length_append]
        omega

/-- Against a remote node that does not change, every run from a store that begins at the
first index, with room for the blocks to start from, ends well, with exactly the remote chain
in the store, or fails because a block is no child of the head, having taken some blocks back.
It fails less often than the store has blocks that the remote chain does not have. -/
theorem restarts_repair
    (tame : ∀ worker ∈ follower.workers, worker.Tame)
    (paced : follower.concurrency.toNat * 16 < 4611686018427387904)
    (holdsAt : scene.HoldsAt chain world)
    (takes : 1 ≤ (scene.shelf world).store.cacheSize.toNat)
    (room : chain ≠ [] → (scene.shelf world).store.HasRoom)
    (pursuit : Pursuit scene remote genesis tip final) (unambiguous : Unambiguous remote chain)
    (founded : ∀ oldest ∈ chain.getLast?, oldest.id.index = genesis)
    (ahead : ∀ newest ∈ chain.head?, newest.id.index < final) :
    ∃ stale shared, chain = stale ++ shared ∧
      (∀ block ∈ stale, ∀ index, remote index ≠ some block) ∧
      (∀ block ∈ shared, ∃ index, remote index = some block) ∧
      ∀ count later, Failures scene follower final world count later →
        ∃ found, found <:+ chain ∧ scene.HoldsAt found later ∧
          (Settles scene remote follower final later ∨
            count < stale.length ∧ ∃ taken left after, found = taken ++ left ∧ taken ≠ [] ∧
              Recedes scene follower final left later after) := by
  obtain ⟨stale, shared, rfl, splits⟩ := exists_splits pursuit.rules chain
  have mendable : Mendable scene remote genesis final stale shared world :=
    ⟨holdsAt.sound, takes, room, holdsAt.holds, holdsAt.proper, splits, unambiguous, founded,
      ahead⟩
  refine ⟨stale, shared, rfl, splits.strange, fun block member => ?_,
    fun count later failures => ?_⟩
  · have some := List.ne_nil_of_mem member
    obtain ⟨newest, isNewest⟩ := Option.isSome_iff_exists.1 (List.isSome_head?.2 some)
    obtain ⟨oldest, isOldest⟩ := Option.isSome_iff_exists.1 (List.getLast?_isSome.2 some)
    have agrees := (splits.agrees pursuit.rules unambiguous holdsAt.holds.toOrderly isNewest
      isOldest).1
    obtain ⟨index, -, -, found⟩ := (agrees block).1 member
    exact ⟨index, found⟩
  · obtain ⟨taken, left, rfl, most, mendableLeft⟩ :=
      failures.exists_left mendable pursuit tame paced
    refine ⟨left ++ shared, ?_, mendableLeft.holdsAt, ?_⟩
    · rw [List.append_assoc]
      exact List.suffix_append _ _
    · rcases mendableLeft.settles_or_recedes pursuit tame paced with
        settles | ⟨more, rest, after, rfl, some, recedes⟩
      · exact Or.inl settles
      · have least := List.length_pos_iff.2 some
        refine Or.inr ⟨?_, more, rest ++ shared, after, List.append_assoc _ _ _, some, recedes⟩
        rw [List.length_append, List.length_append]
        omega

/-! ## A store with two strangers -/

/-- A child of the stale block. -/
def tallBlock : Block := ⟨⟨2, "e"⟩, ⟨1, "b"⟩, 0, [], none⟩

/-- A child of the block above the omission. -/
def crownBlock : Block := ⟨⟨3, "d"⟩, ⟨2, "c"⟩, 0, [], none⟩

/-- The store of the first block, the stale one and its child. -/
def tallShelf : Store.Shelf := (staleShelf.serve (.add tallBlock)).2

theorem tallShelf_keeps : tallShelf.Keeps Holds [tallBlock, staleBlock, Store.firstBlock] :=
  (staleShelf_keeps.serve_add_child (Json.decode?_encode_bareBlock _ _ _) (by decide)
    (by decide) (by rintro _ ⟨⟩; rfl) (by rintro _ ⟨⟩; decide)).2

/-- A store of its entries, which hands out one block only. -/
def narrowBooks (database : Store.Database) : Books :=
  Scene.booksOf ⟨⟨[], 1⟩, .reliable database⟩

/-- The chain that omits an index, one block longer. -/
def crownChain (index : Int64) : Option Block :=
  Store.atIndex? index [crownBlock, forkBlock, Store.firstBlock]

theorem remoteChain_crownChain : RemoteChain crownChain 0 3 := by
  have fork : (Store.firstShelf.serve (.add forkBlock)).2.Keeps Holds
      [forkBlock, Store.firstBlock] :=
    (Store.firstShelf_keeps.serve_add_child (Json.decode?_encode_bareBlock _ _ _) (by decide)
      (by decide) (by rintro _ ⟨⟩; rfl) (by rintro _ ⟨⟩; decide)).2
  have crown := (fork.serve_add_child (Json.decode?_encode_bareBlock crownBlock.id crownBlock.parent
    0) (by decide) (by decide) (by rintro _ ⟨⟩; rfl) (by rintro _ ⟨⟩; decide)).2
  exact .ofBlocks crown.kept.toOrderly rfl rfl rfl (by decide) (by decide)

/-- A node with that chain. -/
def crownScene : Scene Books :=
  .ofChain ⟨crownBlock.id, 0, Store.firstBlock.id, none, []⟩ crownChain

theorem pursuit_crownScene : Pursuit crownScene crownChain 0 3 3 :=
  ⟨remoteChain_crownChain, Scene.fixed_ofChain 0 rfl rfl, ⟨_, rfl⟩⟩

theorem unambiguous_crownChain :
    Unambiguous crownChain [tallBlock, staleBlock, Store.firstBlock] := by
  intro stored member index found foundAt same
  have among := (Store.mem_of_atIndex? foundAt).1
  simp only [List.mem_cons, List.not_mem_nil, or_false] at among member
  rcases member with rfl | rfl | rfl <;> rcases among with rfl | rfl | rfl <;>
    first | rfl | exact absurd same (by decide)

/-- The world after the first run from that store. -/
def recededBooks : Books :=
  (indexingFollower.sync crownScene.around crownScene.ledger (-1) 3 4
    (narrowBooks tallShelf.session.database)).2

set_option maxRecDepth 8000 in
/-- The first run takes back the child of the stale block and fails, since the block above the
omission is no child of the stale block; the next one ends well. -/
theorem restarts_repair_tallShelf :
    (∃ taken left, taken ++ left <:+ [tallBlock, staleBlock, Store.firstBlock] ∧ taken ≠ [] ∧
      Recedes crownScene indexingFollower 3 left (narrowBooks tallShelf.session.database)
        recededBooks) ∧
      Settles crownScene crownChain indexingFollower 3
        (narrowBooks (crownScene.shelf recededBooks).session.database) := by
  have holdsAt : crownScene.HoldsAt [tallBlock, staleBlock, Store.firstBlock]
      (narrowBooks tallShelf.session.database) :=
    ⟨Store.sound_reliable _, tallShelf_keeps.kept, by decide⟩
  have opens (database : Store.Database) : crownScene.Opens 1 (narrowBooks database) :=
    ⟨Store.sound_reliable _, show 1 ≤ (1 : UInt64).toNat by decide,
      Store.BlockStore.hasRoom_iff.2 (show (1 : UInt64).toNat < _ by decide)⟩
  have ahead : ∀ newest ∈ [tallBlock, staleBlock, Store.firstBlock].head?,
      newest.id.index < 3 := by
    rintro _ ⟨⟩
    decide
  have founded : ∀ oldest ∈ [tallBlock, staleBlock, Store.firstBlock].getLast?,
      oldest.id.index = 0 := by
    rintro _ ⟨⟩
    rfl
  obtain ⟨stale, shared, chain, -, -, repaired⟩ := restarts_repair tame_indexingFollower
    (by decide) holdsAt (opens _).takes (fun _ => (opens _).room) pursuit_crownScene
    unambiguous_crownChain founded ahead
  have fails : crownScene.Ends indexingFollower 3 (narrowBooks tallShelf.session.database)
      (.error (additionFailure forkBlock
        (.notChildOfHead forkBlock.id.display staleBlock.id.display))) recededBooks :=
    ⟨4, fun fuel => by rw [Nat.add_comm]; rfl⟩
  have again : Failures crownScene indexingFollower 3 (narrowBooks tallShelf.session.database) 1
      (narrowBooks (crownScene.shelf recededBooks).session.database) :=
    .failed .none fails rfl (opens _)
  have ends : ∃ after, crownScene.Ends indexingFollower 3
      (narrowBooks (crownScene.shelf recededBooks).session.database) (.ok ()) after :=
    ⟨_, 7, fun fuel => by rw [Nat.add_comm]; rfl⟩
  constructor
  · obtain ⟨found, suffix, -, ⟨_, _, settles, -⟩ | ⟨-, taken, left, after, rfl, some, recedes⟩⟩ :=
      repaired 0 _ .none
    · cases (fails.unique settles).1
    · obtain ⟨block, head, isHead, failed, keeps, opened⟩ := recedes
      obtain ⟨-, rfl⟩ := fails.unique failed
      exact ⟨taken, left, suffix, some, block, head, isHead, failed, keeps, opened⟩
  · obtain ⟨found, -, -, settles | ⟨-, taken, left, after, -, -, block, head, -, failed, -⟩⟩ :=
      repaired 1 _ again
    · exact settles
    · obtain ⟨_, settles⟩ := ends
      cases (settles.unique failed).1

/-- Without room for the blocks to start from, a run neither ends well nor fails like that. -/
theorem unrepaired_crowdedShelf :
    crowdedShelf.store.cacheSize.toNat < 4611686018427387904 ∧
      forkScene.HoldsAt [staleBlock, Store.firstBlock] (Scene.booksOf crowdedShelf) ∧
      Pursuit forkScene forkChain 0 2 2 ∧
      Unambiguous forkChain [staleBlock, Store.firstBlock] ∧
      (∀ oldest ∈ [staleBlock, Store.firstBlock].getLast?, oldest.id.index = 0) ∧
      (∀ newest ∈ [staleBlock, Store.firstBlock].head?, newest.id.index < 2) ∧
      ¬Settles forkScene forkChain indexingFollower 2 (Scene.booksOf crowdedShelf) ∧
      ∀ left after,
        ¬Recedes forkScene indexingFollower 2 left (Scene.booksOf crowdedShelf) after := by
  have crowded : ¬crowdedShelf.store.HasRoom := by decide
  obtain ⟨after, accesses, panics, -⟩ := Scene.sync_crowded indexingFollower
    holdsAt_crowdedShelf crowded (List.cons_ne_nil _ _)
  have ends : forkScene.Ends indexingFollower 2 (Scene.booksOf crowdedShelf)
      (.error (.panicked "capacity overflow")) after := ⟨0, fun fuel => (panics 2 _).1⟩
  refine ⟨by decide, holdsAt_crowdedShelf, pursuit_forkScene, unambiguous_forkChain,
    by rintro _ ⟨⟩; rfl, by rintro _ ⟨⟩; decide, ?_, ?_⟩
  · rintro ⟨_, _, settles, -⟩
    cases (ends.unique settles).1
  · rintro left _ ⟨block, head, -, recedes, -⟩
    cases (ends.unique recedes).1

end ChainFollower.Sync
