import ChainFollower.Proofs.Sync.Convergence
import ChainFollower.Proofs.Sync.Resumption

/-!
# Going on without the head

A run that cannot look up the head begins at the first block of the remote chain, with a
window from the end of the store.  The first block is no child of the head, so that the
head is taken back, although nothing is wrong with it.
-/

namespace ChainFollower.Sync

open Store (Holds Worker)

variable {σ : Type} {scene : Scene σ} {remote : Int64 → Option Block} {genesis tip final : Int64}
  {chain older : List Block} {newest first : Block} {machine : Machine σ} {world : σ}
  {follower : Follower}

/-- A ledger whose head cannot be looked up. -/
def Ledger.headless (ledger : Ledger σ) (error : SyncError) : Ledger σ :=
  { ledger with head := fun world => (.error error, world) }

/-- Decisions are recorded as ever. -/
theorem Scene.handler_headless (error : SyncError) :
    Follower.handler (scene.ledger.headless error) = scene.handler := rfl

/-- Such a run has no index to begin at, but reads the newest blocks all the same. -/
theorem Follower.prepare_headless (follower : Follower) (ledger : Ledger σ) (error : SyncError)
    (world : σ) : follower.prepare (ledger.headless error) (-1) world =
      match ledger.recent (ledger.prepare follower.workers world) with
      | (.error error, after) => (.error error, after)
      | (.ok recent, after) => (.ok (-1, follower.engine recent), after) := rfl

section

variable (holdsAt : scene.HoldsAt chain world) (tame : ∀ worker ∈ follower.workers, worker.Tame)
include holdsAt tame

theorem Scene.HoldsAt.of_prepared :
    scene.HoldsAt chain (scene.ledger.prepare follower.workers world) :=
  holdsAt.left List.suffix_rfl (holdsAt.prepared tame).sound (holdsAt.prepared tame).kept

/-- It has the window that it would have had. -/
theorem Scene.prepare_headless (room : chain ≠ [] → (scene.shelf world).store.HasRoom)
    (error : SyncError) :
    ∃ after, follower.prepare (scene.ledger.headless error) (-1) world =
        (.ok (-1, startEngine follower (scene.shelf world).store.cacheSize chain), after) ∧
      (scene.shelf after).Keeps Holds chain := by
  obtain ⟨after, accesses, found, shelf⟩ :=
    Scene.recent_eq (holdsAt.of_prepared tame) (by rwa [Scene.shelf_prepare])
  refine ⟨after, ?_, shelf ▸ (holdsAt.prepared tame).counted accesses⟩
  rw [Follower.prepare_headless, found, Scene.shelf_prepare]
  rfl

/-- Or it panics for want of room. -/
theorem Scene.calls_headless_crowded (crowded : ¬(scene.shelf world).store.HasRoom)
    (nonempty : chain ≠ []) (error : SyncError) (final : Int64) (fuel : Nat) :
    follower.calls scene.around (scene.ledger.headless error) (-1) final fuel world = [] := by
  obtain ⟨after, accesses, found, -⟩ := Scene.recent_crowded (holdsAt.of_prepared tame)
    (by rwa [Scene.shelf_prepare]) nonempty
  have refused : follower.prepare (scene.ledger.headless error) (-1) world =
      (.error (.panicked "capacity overflow"), after) := by
    rw [Follower.prepare_headless, found]
  exact (Follower.sync_of_refused refused final fuel).2

end

/-- A run is about to begin at the first block of the remote chain, with the head of the
store in its window. -/
structure Astray (scene : Scene σ) (genesis : Int64) (chain : List Block) (machine : Machine σ) :
    Prop extends InStep scene chain machine where
  begins : machine.engine.next = genesis
  spent : machine.remaining = 0
  seeded : machine.engine.window.head? = chain.head?.map Block.id
  paced : Paced machine.engine

/-- A run that cannot look up the head goes astray. -/
theorem astray_of_headless (rules : RemoteChain remote genesis tip)
    (fixed : scene.Fixed remote genesis tip) (holdsAt : scene.HoldsAt (newest :: older) world)
    (tame : ∀ worker ∈ follower.workers, worker.Tame)
    (paced : follower.concurrency.toNat * 16 < 4611686018427387904)
    (takes : 1 ≤ (scene.shelf world).store.cacheSize.toNat)
    (room : (scene.shelf world).store.HasRoom) (error : SyncError) :
    ∃ engine prepared machine,
      follower.prepare (scene.ledger.headless error) (-1) world = (.ok (-1, engine), prepared) ∧
      Machine.settle scene.around (-1) ⟨engine, 0, prepared⟩ = .running machine ∧
      Astray scene genesis (newest :: older) machine := by
  obtain ⟨prepared, ready, keeps⟩ := scene.prepare_headless holdsAt tame (fun _ => room) error
  refine ⟨_, prepared, _, ready, fixed.settle_genesis rules _ _, ?_, rfl, rfl, ?_, ?_⟩
  · exact (inStep_startEngine follower _ keeps holdsAt.proper).same (scene.shelf_status _) rfl rfl
  · exact head?_startEngine follower takes newest older
  · exact startEngine_paced (scene.shelf world).store.cacheSize (newest :: older) paced

namespace Astray

variable (astray : Astray scene genesis (newest :: older) machine)
  (rules : RemoteChain remote genesis tip) (fixed : scene.Fixed remote genesis tip)

include astray rules fixed

/-- If the end is below the first block, nothing is asked for. -/
theorem calls_of_ended (given : final ≠ -1) (below : final < genesis) (fuel : Nat) :
    machine.calls scene.around scene.handler final fuel = [] := by
  obtain ⟨block, found, -⟩ := rules.first
  have within : final ≤ tip :=
    Int64.le_of_lt (Int64.lt_of_lt_of_le below (rules.place found).2.2)
  have natural : 0 ≤ machine.engine.next := astray.begins ▸ rules.natural
  have passed : final < machine.engine.next := astray.begins ▸ below
  have stepped := fixed.step_finished rules astray.spent natural given within passed
  cases fuel with
  | zero => rfl
  | succ fuel =>
      rw [Machine.calls_of_ended stepped, Machine.call?_of_spent astray.spent]
      rfl

/-- Otherwise the first block is asked for and received. -/
theorem step_opened (reaches : genesis ≤ Engine.reachable tip final)
    (found : remote genesis = some first) :
    ∃ opened, machine.step scene.around scene.handler final = .running opened ∧
      opened.received? scene.around = some first ∧ opened.engine = machine.engine ∧
      InStep scene (newest :: older) opened := by
  have begins := astray.begins
  have natural : 0 ≤ machine.engine.next := begins ▸ rules.natural
  have small : (Engine.reachable tip final).toInt < 4611686018427387904 :=
    Int.lt_of_le_of_lt (Int64.le_iff_toInt_le.1 (Engine.reachable_le tip final)) rules.small
  have more := (roundSize_bounds (Int64.le_iff_toInt_le.1 natural) (begins ▸ reaches) small
    astray.paced).1
  refine ⟨_, fixed.step_opened rules astray.spent natural (begins ▸ reaches), ?_, rfl, ?_⟩
  · refine Machine.received?_eq_some_iff.2 ⟨fixed.uncancelled _, more, ?_, ?_⟩
    · rw [← found, ← begins]
      exact fixed.block _ _ _
    · rw [(rules.place found).1, ← begins]
  · exact astray.toInStep.same (scene.shelf_status _) rfl rfl

/-- Above other blocks, the head is taken back. -/
theorem takes_newest (reaches : genesis ≤ Engine.reachable tip final)
    (found : remote genesis = some first) (other : first.parent ≠ newest.id) :
    ∃ opened, machine.step scene.around scene.handler final = .running opened ∧
      opened.call? scene.around = some (.removed newest.id) ∧
      ∃ next, opened.step scene.around scene.handler final = .running next ∧
        next.engine.next = newest.id.index ∧ next.remaining = 0 ∧
        (scene.shelf next.world).Keeps Holds older := by
  obtain ⟨opened, stepped, received, engine, inStep⟩ :=
    astray.step_opened rules fixed reaches found
  have newestLast : opened.engine.window.head? = some newest.id := engine ▸ astray.seeded
  have called : opened.call? scene.around = some (.removed newest.id) :=
    Machine.call?_eq_some_iff.2 ⟨first, received, Engine.verdict_of_other newestLast other⟩
  obtain ⟨granted, keeps⟩ := inStep.removal
  exact ⟨opened, stepped, called, _, Machine.step_of_granted called granted, rfl, rfl, keeps⟩

/-- If the end is below the head, that is all: the head is lost. -/
theorem loses_newest (given : final ≠ -1) (reaches : genesis ≤ final)
    (below : final < newest.id.index) (within : final ≤ tip)
    (found : remote genesis = some first) (other : first.parent ≠ newest.id) :
    ∃ last, (∀ fuel, machine.run scene.around scene.handler final (fuel + 3) =
        (some (.ok ()), last) ∧
      machine.calls scene.around scene.handler final (fuel + 3) = [.removed newest.id]) ∧
      (scene.shelf last.world).Keeps Holds older := by
  rw [← Engine.reachable_eq given within] at reaches
  obtain ⟨opened, stepped, called, next, steppedNext, place, spent, keeps⟩ :=
    astray.takes_newest rules fixed reaches found other
  have natural : 0 ≤ next.engine.next := by
    rw [place, Int64.le_iff_toInt_le]
    exact (astray.proper newest List.mem_cons_self).1
  have finished := fixed.step_finished rules spent natural given within (place ▸ below)
  refine ⟨next.moved (scene.around.status next.world).2, fun fuel => ⟨?_, ?_⟩, ?_⟩
  · rw [Machine.run_of_running stepped, Machine.run_of_running steppedNext,
      Machine.run_of_ended finished]
  · rw [Machine.calls_of_running stepped, Machine.calls_of_running steppedNext,
      Machine.calls_of_ended finished, Machine.call?_of_spent astray.spent, called,
      Machine.call?_of_spent spent]
    rfl
  · exact (scene.shelf_status next.world).symm ▸ keeps

end Astray

/-- A block with nothing below it is only offered again, and refused. -/
theorem Astray.calls_of_alone (astray : Astray scene genesis [newest] machine)
    (rules : RemoteChain remote genesis tip) (fixed : scene.Fixed remote genesis tip)
    (reaches : genesis ≤ Engine.reachable tip final) (found : remote genesis = some newest)
    (alone : newest.parent = newest.id) (fuel : Nat) :
    ∀ call ∈ machine.calls scene.around scene.handler final fuel, ∃ block, call = .added block := by
  obtain ⟨opened, stepped, received, engine, inStep⟩ :=
    astray.step_opened rules fixed reaches found
  have child : ∀ last ∈ opened.engine.window.head?, newest.parent = last := by
    rw [engine, astray.seeded]
    rintro _ ⟨⟩
    exact alone
  have called : opened.call? scene.around = some (.added newest) :=
    Machine.call?_eq_some_iff.2 ⟨newest, received, Engine.verdict_of_child child⟩
  have keeps : (scene.shelf (opened.asked scene.around)).Keeps Holds [newest] :=
    (scene.shelf_asked opened).symm ▸ inStep.keeps
  have twice : newest.id.hash ∈ [newest].map (·.id.hash) := List.mem_singleton.2 rfl
  have refused := Scene.addition_refused keeps (Or.inl ⟨rfl, twice⟩)
    (keeps.kept.toStored.yields_add_duplicate _ twice)
  cases refused with
  | granted child granted keeps =>
      exact absurd twice keeps.kept.toOrderly.newest_notMem
  | refused cause reason refused keeps same =>
      have ended : opened.step scene.around scene.handler final = _ :=
        Machine.step_of_refused called refused
      rcases fuel with _ | _ | fuel
      · exact fun _ none => nomatch none
      · rw [Machine.calls_of_running stepped, Machine.call?_of_spent astray.spent]
        exact fun _ none => nomatch none
      · rw [Machine.calls_of_running stepped, Machine.call?_of_spent astray.spent,
          Machine.calls_of_ended ended, called]
        intro call member
        exact ⟨newest, List.mem_singleton.1 member⟩

/-! ## Answered and unanswered lookups -/

/-- The first block of the remote chain is the only one of its own in a store. -/
theorem first_of_shared (rules : RemoteChain remote genesis tip)
    (orderly : Store.Orderly (newest :: older))
    (shared : Agrees remote genesis.toInt (newest.id.index.toInt + 1) (newest :: older)) :
    ∃ first, remote genesis = some first ∧
      (older = [] → first = newest ∧ newest.parent = newest.id) ∧
      (older ≠ [] → first.parent ≠ newest.id) := by
  obtain ⟨first, found, ownParent⟩ := rules.first
  obtain ⟨index, above, below, foundNewest⟩ := (shared newest).1 List.mem_cons_self
  have place := (rules.place foundNewest).1
  subst place
  have member : first ∈ newest :: older :=
    (shared first).2 ⟨genesis, Int.le_refl _, by omega, found⟩
  refine ⟨first, found, fun alone => ?_, fun more same => ?_⟩
  · subst alone
    cases List.mem_singleton.1 member
    exact ⟨rfl, ownParent⟩
  · cases older with
    | nil => exact more rfl
    | cons lower older =>
        have same : first = newest := rules.distinct found foundNewest
          (congrArg BlockId.hash (ownParent.symm.trans same))
        subst same
        rw [orderly.parent_newest] at ownParent
        exact orderly.newest_notMem (ownParent ▸ List.mem_cons_self)

/-- A run that goes astray takes a block back just if there is more than one and the first is
asked for. -/
theorem Astray.removed_mem_calls_iff (astray : Astray scene genesis (newest :: older) machine)
    (rules : RemoteChain remote genesis tip) (fixed : scene.Fixed remote genesis tip)
    (shared : Agrees remote genesis.toInt (newest.id.index.toInt + 1) (newest :: older)) :
    (∃ fuel id, .removed id ∈ machine.calls scene.around scene.handler final fuel) ↔
      older ≠ [] ∧ (final = -1 ∨ genesis ≤ final) := by
  obtain ⟨first, found, alone, above⟩ :=
    first_of_shared rules astray.keeps.kept.toOrderly shared
  have reaches : final = -1 ∨ genesis ≤ final → genesis ≤ Engine.reachable tip final := by
    intro asked
    rw [Engine.reachable]
    split
    next bounded => exact asked.resolve_left bounded.1
    next => exact (rules.place found).2.2
  constructor
  · rintro ⟨fuel, id, member⟩
    have asked : final = -1 ∨ genesis ≤ final := by
      by_contra neither
      obtain ⟨given, below⟩ := not_or.1 neither
      rw [astray.calls_of_ended rules fixed given (Int64.not_le.1 below) fuel] at member
      cases member
    refine ⟨fun none => ?_, asked⟩
    subst none
    obtain ⟨rfl, ownParent⟩ := alone rfl
    obtain ⟨block, same⟩ :=
      astray.calls_of_alone rules fixed (reaches asked) found ownParent fuel _ member
    cases same
  · rintro ⟨more, asked⟩
    obtain ⟨opened, stepped, called, -⟩ :=
      astray.takes_newest rules fixed (reaches asked) found (above more)
    refine ⟨2, newest.id, ?_⟩
    rw [Machine.calls_of_running stepped]
    refine List.mem_append_right _ ?_
    rw [Machine.calls, called]
    exact List.mem_append_left _ (List.mem_singleton.2 rfl)

/-- A run that goes on after the head of a part of the remote chain takes nothing back and
leaves what was stored.  One that cannot look up the head takes a block back just if there
is room for the blocks to start from, there is more than one and the first is asked for; and
it has lost the head if it ends below. -/
theorem resumption_takes_back_iff
    (tame : ∀ worker ∈ follower.workers, worker.Tame)
    (paced : follower.concurrency.toNat * 16 < 4611686018427387904)
    (holdsAt : scene.HoldsAt (newest :: older) world)
    (takes : 1 ≤ (scene.shelf world).store.cacheSize.toNat)
    (rules : RemoteChain remote genesis tip) (faithful : scene.Faithful remote genesis tip)
    (shared : Agrees remote genesis.toInt (newest.id.index.toInt + 1) (newest :: older)) :
    (∀ fuel, (∀ call ∈ follower.calls scene.around scene.ledger (-1) final fuel world,
        ∃ block, call = .added block) ∧
      ∃ longer, newest :: older <:+ longer ∧ (scene.shelf (follower.sync scene.around scene.ledger
        (-1) final fuel world).2).Keeps Holds longer) ∧
    (scene.Fixed remote genesis tip → ∀ error,
      ((∃ fuel id, .removed id ∈ follower.calls scene.around (scene.ledger.headless error) (-1)
        final fuel world) ↔
          (scene.shelf world).store.HasRoom ∧ older ≠ [] ∧ (final = -1 ∨ genesis ≤ final)) ∧
      ((scene.shelf world).store.HasRoom → older ≠ [] → final ≠ -1 → genesis ≤ final →
        final < newest.id.index → ∃ after,
        (∀ fuel, follower.sync scene.around (scene.ledger.headless error) (-1) final (fuel + 3)
          world = (some (.ok ()), after)) ∧ (scene.shelf after).Keeps Holds older)) := by
  obtain ⟨first, found, -, above⟩ := first_of_shared rules holdsAt.holds.toOrderly shared
  have inChain : newest.id.index ≤ tip := by
    obtain ⟨index, -, -, foundNewest⟩ := (shared newest).1 List.mem_cons_self
    obtain ⟨rfl, -, within⟩ := rules.place foundNewest
    exact within
  refine ⟨fun fuel => ?_, fun fixed error => ?_⟩
  · by_cases room : (scene.shelf world).store.HasRoom
    · obtain ⟨machine, resumed⟩ := scene.exists_resumed follower holdsAt room
      rw [resumed.calls_eq, resumed.sync_eq]
      exact (following_of_resumed resumed holdsAt tame shared).run rules faithful fuel
    · obtain ⟨after, accesses, panics, shelf⟩ :=
        scene.sync_crowded follower holdsAt room (List.cons_ne_nil newest older)
      rw [(panics final fuel).1, (panics final fuel).2]
      refine ⟨fun _ none => (nomatch none), newest :: older, List.suffix_rfl, ?_⟩
      rw [shelf]
      exact ⟨tame, holdsAt.sound, holdsAt.holds⟩
  · by_cases room : (scene.shelf world).store.HasRoom
    swap
    · refine ⟨⟨?_, fun taken => absurd taken.1 room⟩, fun roomy => absurd roomy room⟩
      rintro ⟨fuel, id, member⟩
      rw [scene.calls_headless_crowded holdsAt tame room (List.cons_ne_nil newest older)] at member
      cases member
    obtain ⟨engine, prepared, machine, ready, settled, astray⟩ :=
      astray_of_headless rules fixed holdsAt tame paced takes room error
    refine ⟨?_, fun _ more given reached below => ?_⟩
    · simp only [Follower.calls_of_running ready settled, Scene.handler_headless, room, true_and]
      exact astray.removed_mem_calls_iff rules fixed shared
    · obtain ⟨last, ran, keeps⟩ := astray.loses_newest rules fixed given reached below
        (Int64.le_trans (Int64.le_of_lt below) inChain) found (above more)
      refine ⟨last.world, fun fuel => ?_, keeps⟩
      rw [Follower.sync_of_running ready settled, Scene.handler_headless, (ran fuel).1]

/-- The remote node has what is stored. -/
def storedChain (index : Int64) : Option Block :=
  Store.atIndex? index [staleBlock, Store.firstBlock]

/-- A node with that chain. -/
def storedScene : Scene Books :=
  .ofChain ⟨staleBlock.id, 0, Store.firstBlock.id, none, []⟩ storedChain

theorem remoteChain_storedChain : RemoteChain storedChain 0 1 :=
  .ofBlocks staleShelf_keeps.kept.toOrderly rfl rfl rfl (by decide) (by decide)

theorem fixed_storedScene : storedScene.Fixed storedChain 0 1 :=
  Scene.fixed_ofChain 0 rfl rfl

theorem agrees_storedChain :
    Agrees storedChain (0 : Int64).toInt (staleBlock.id.index.toInt + 1)
      [staleBlock, Store.firstBlock] := by
  intro block
  constructor
  · intro member
    rcases List.mem_pair.1 member with rfl | rfl
    · exact ⟨1, by decide, by decide, rfl⟩
    · exact ⟨0, by decide, by decide, rfl⟩
  · rintro ⟨index, -, -, found⟩
    exact (Store.mem_of_atIndex? found).1

theorem holdsAt_storedScene :
    storedScene.HoldsAt [staleBlock, Store.firstBlock] (Scene.booksOf staleShelf) :=
  ⟨staleShelf_keeps.sound, staleShelf_keeps.kept, by decide⟩

theorem takes_storedScene :
    1 ≤ (storedScene.shelf (Scene.booksOf staleShelf)).store.cacheSize.toNat := by
  change 1 ≤ staleShelf.store.cacheSize.toNat
  rw [cacheSize_staleShelf]
  decide

/-- The stored blocks are those of the remote node. -/
theorem resumption_takes_back_iff_storedChain :
    (∀ fuel, (∀ call ∈ indexingFollower.calls storedScene.around storedScene.ledger (-1) 0 fuel
        (Scene.booksOf staleShelf), ∃ block, call = .added block) ∧
      ∃ longer, [staleBlock, Store.firstBlock] <:+ longer ∧ (storedScene.shelf
        (indexingFollower.sync storedScene.around storedScene.ledger (-1) 0 fuel
          (Scene.booksOf staleShelf)).2).Keeps Holds longer) ∧
    ∃ fuel id, .removed id ∈ indexingFollower.calls storedScene.around
      (storedScene.ledger.headless (.storage (.database "unreadable"))) (-1) 0 fuel
      (Scene.booksOf staleShelf) := by
  obtain ⟨answered, headless⟩ := resumption_takes_back_iff tame_indexingFollower (by decide)
    holdsAt_storedScene takes_storedScene remoteChain_storedChain fixed_storedScene.faithful
    agrees_storedChain
  exact ⟨answered, (headless fixed_storedScene _).1.2
    ⟨hasRoom_staleShelf, List.cons_ne_nil _ _, Or.inr (by decide)⟩⟩

/-- A run through index 0 that cannot look up the head ends well without the block at
index 1, which the remote node has as well. -/
theorem headless_loses_staleBlock :
    storedScene.HoldsAt [staleBlock, Store.firstBlock] (Scene.booksOf staleShelf) ∧
    storedScene.Fixed storedChain 0 1 ∧ RemoteChain storedChain 0 1 ∧
    Agrees storedChain (0 : Int64).toInt (staleBlock.id.index.toInt + 1)
      [staleBlock, Store.firstBlock] ∧
    ∃ after, (∀ fuel, indexingFollower.sync storedScene.around
        (storedScene.ledger.headless (.storage (.database "unreadable"))) (-1) 0 (fuel + 3)
        (Scene.booksOf staleShelf) = (some (.ok ()), after) ∧
      indexingFollower.calls storedScene.around
        (storedScene.ledger.headless (.storage (.database "unreadable"))) (-1) 0 (fuel + 3)
        (Scene.booksOf staleShelf) = [.removed staleBlock.id]) ∧
      (storedScene.shelf after).Keeps Holds [Store.firstBlock] := by
  refine ⟨holdsAt_storedScene, fixed_storedScene, remoteChain_storedChain, agrees_storedChain, ?_⟩
  obtain ⟨engine, prepared, machine, ready, settled, astray⟩ :=
    astray_of_headless remoteChain_storedChain fixed_storedScene holdsAt_storedScene
      tame_indexingFollower (by decide) takes_storedScene hasRoom_staleShelf
      (.storage (.database "unreadable"))
  have below : (0 : Int64) < staleBlock.id.index := by decide
  obtain ⟨last, ran, keeps⟩ := astray.loses_newest remoteChain_storedChain fixed_storedScene
    (by decide) (by decide) below (by decide) rfl (by decide)
  refine ⟨last.world, fun fuel => ?_, keeps⟩
  rw [Follower.sync_of_running ready settled, Follower.calls_of_running ready settled,
    Scene.handler_headless, (ran fuel).1, (ran fuel).2]
  exact ⟨rfl, rfl⟩

end ChainFollower.Sync
