import ChainFollower.Proofs.Sync.Moves
import ChainFollower.Proofs.Sync.Preparation

/-!
# The engine and the store in lockstep

Whatever the remote node answers, the window of the engine is the upper end of the
chain in the store, and the next index is above the head.  Decisions change the
engine and the store together or, when they fail, neither.
-/

namespace ChainFollower.Sync

open Store (Durable Holds Stray Worker)

/-- What a remote node is assumed to serve: blocks that survive their JSON form, are
not stray, and are below the last index. -/
structure Servable (block : Block) : Prop where
  durable : Durable block
  settled : ¬Stray block
  notLast : block.id.index ≠ Int64.maxValue

variable {σ : Type} {scene : Scene σ} {machine next : Machine σ} {chain older : List Block}
  {final : Int64}

/-- The remote node serves only such blocks, whatever else it answers. -/
def Scene.Serves (scene : Scene σ) (Kind : Block → Prop) : Prop :=
  ∀ index ahead world block,
    (scene.around.block index ahead world).1 = some (.ok (some block)) → Kind block

/-- The store holds a chain, and the window is its upper end. -/
structure InStep (scene : Scene σ) (chain : List Block) (machine : Machine σ) : Prop where
  keeps : (scene.shelf machine.world).Keeps Holds chain
  /-- Indices are natural numbers with a successor. -/
  proper : ∀ block ∈ chain, 0 ≤ block.id.index.toInt ∧ block.id.index.toInt < 9223372036854775807
  window : machine.engine.window <+: chain.map Block.id
  limit : machine.engine.windowLimit = Engine.defaultWindowLimit
  limited : machine.engine.window.length ≤ machine.engine.windowLimit

/-- The engine goes on above the head, and the rest of its round stays within the
indices there are. -/
structure Lockstep (scene : Scene σ) (chain : List Block) (machine : Machine σ) : Prop
    extends InStep scene chain machine where
  ahead : ∀ newest ∈ chain.head?, newest.id.index < machine.engine.next
  round : machine.remaining ≠ 0 → 0 ≤ machine.engine.next.toInt ∧
    machine.engine.next.toInt + machine.remaining ≤ 9223372036854775808

/-! ## Steps between decisions -/

/-- What does not touch the shelf and the window leaves them in step. -/
theorem InStep.same (inStep : InStep scene chain machine)
    (shelf : scene.shelf next.world = scene.shelf machine.world)
    (window : next.engine.window = machine.engine.window)
    (limit : next.engine.windowLimit = machine.engine.windowLimit) : InStep scene chain next :=
  ⟨shelf ▸ inStep.keeps, inStep.proper, window ▸ inStep.window, limit.trans inStep.limit, by
    rw [window, limit]
    exact inStep.limited⟩

theorem Scene.shelf_asked (scene : Scene σ) (machine : Machine σ) :
    scene.shelf (machine.asked scene.around) = scene.shelf machine.world :=
  scene.shelf_block machine.world machine.engine.next machine.ahead

/-- The newest block of the window is the head. -/
theorem InStep.exists_newest (inStep : InStep scene chain machine) {last : BlockId}
    (newest : machine.engine.window.head? = some last) :
    ∃ block older, chain = block :: older ∧ block.id = last := by
  obtain ⟨rest, split⟩ := inStep.window
  cases window : machine.engine.window with
  | nil =>
      rw [window] at newest
      cases newest
  | cons first others =>
      rw [window] at newest split
      cases newest
      cases chain with
      | nil => cases split
      | cons block older =>
          rw [List.map_cons, List.cons_append, List.cons.injEq] at split
          exact ⟨block, older, rfl, split.1.symm⟩

/-- The last index is the only one without a successor. -/
theorem next_lt_of_place {block : Block} (servable : Servable block)
    (place : block.id.index = machine.engine.next) :
    machine.engine.next.toInt < 9223372036854775807 :=
  place ▸ Words.ne_maxValue_iff.1 servable.notLast

/-- A block that is handed over becomes the head of the store and of the window. -/
theorem Lockstep.push (lockstep : Lockstep scene chain machine) {left : Nat} {block : Block}
    {world : σ} (servable : Servable block) (round : machine.remaining = left + 1)
    (place : block.id.index = machine.engine.next)
    (keeps : (scene.shelf world).Keeps Holds (block :: chain)) :
    Lockstep scene (block :: chain) ⟨machine.engine.push block.id, left, world⟩ where
  keeps := keeps
  proper := by
    intro other member
    rcases List.mem_cons.1 member with rfl | member
    · rw [place]
      exact ⟨(lockstep.round (by omega)).1, next_lt_of_place servable place⟩
    · exact lockstep.proper other member
  window := by
    have longer : block.id :: machine.engine.window <+: (block :: chain).map Block.id :=
      List.prefix_cons_inj block.id |>.2 lockstep.window
    exact (List.take_prefix _ _).trans longer
  limit := lockstep.limit
  limited := List.length_take_le _ _
  ahead := by
    rintro _ ⟨⟩
    have successor := Words.toInt_succ (next_lt_of_place servable place)
    change block.id.index < block.id.index + 1
    rw [Int64.lt_iff_toInt_lt, place, successor]
    omega
  round := by
    intro more
    have bounds := lockstep.round (by omega)
    have successor := Words.toInt_succ (next_lt_of_place servable place)
    change 0 ≤ (block.id.index + 1).toInt ∧ (block.id.index + 1).toInt + left ≤ _
    rw [place, successor]
    omega

/-- When the head is taken back, the block below it is the head of the store and of
the window. -/
theorem Lockstep.pop {newest : Block} (lockstep : Lockstep scene (newest :: older) machine)
    {world : σ} (keeps : (scene.shelf world).Keeps Holds older) :
    Lockstep scene older ⟨machine.engine.pop newest.id, 0, world⟩ where
  keeps := keeps
  proper block member := lockstep.proper block (List.mem_cons_of_mem _ member)
  window := by
    obtain ⟨rest, split⟩ := lockstep.window
    change machine.engine.window.tail <+: _
    cases window : machine.engine.window with
    | nil => exact List.nil_prefix
    | cons first others =>
        rw [window, List.map_cons, List.cons_append, List.cons.injEq] at split
        exact ⟨rest, split.2⟩
  limit := lockstep.limit
  limited := by
    change machine.engine.window.tail.length ≤ machine.engine.windowLimit
    rw [List.length_tail]
    exact Nat.le_trans (Nat.sub_le _ _) lockstep.limited
  ahead := by
    intro head isHead
    exact lockstep.keeps.kept.toOrderly.lt_newest (List.mem_of_mem_head? isHead)
  round none := absurd rfl none

/-! ## Decisions -/

/-- A block that the engine would hand over is added, or refused by the store. -/
theorem Lockstep.addition (lockstep : Lockstep scene chain machine) {block : Block}
    (servable : Servable block) (place : block.id.index = machine.engine.next) :
    Scene.Addition scene (machine.asked scene.around) chain block := by
  refine Scene.addition ?_ servable.durable servable.settled fun head isHead => ?_
  · rw [scene.shelf_asked]
    exact lockstep.keeps
  · rw [place]
    exact lockstep.ahead head isHead

/-- The last block of the window can always be taken back. -/
theorem InStep.removal {newest : Block} (inStep : InStep scene (newest :: older) machine) :
    (scene.handler.removed newest.id (machine.asked scene.around)).1 = .ok () ∧
      (scene.shelf (scene.handler.removed newest.id (machine.asked scene.around)).2).Keeps
        Holds older := by
  refine Scene.removal ?_
  rw [scene.shelf_asked]
  exact inStep.keeps

/-- A decision changes the chain and the window at their heads. -/
theorem Lockstep.decision (lockstep : Lockstep scene chain machine)
    (serves : scene.Serves Servable) (decision : Decision scene.around scene.handler machine next) :
    ∃ changed, Lockstep scene changed next ∧
      ((∃ block, changed = block :: chain) ∨ ∃ newest, chain = newest :: changed) := by
  cases decision with
  | added left block round answer place child granted =>
      have servable := serves _ _ _ _ answer
      cases lockstep.addition servable place with
      | granted _ _ keeps =>
          exact ⟨_, lockstep.push servable round place keeps, Or.inl ⟨block, rfl⟩⟩
      | refused cause reason result keeps same =>
          rw [result] at granted
          cases granted
  | removed left block last round answer place newest other granted =>
      obtain ⟨head, older, rfl, rfl⟩ := lockstep.exists_newest newest
      exact ⟨older, lockstep.pop lockstep.removal.2, Or.inr ⟨head, rfl⟩⟩

/-! ## Steps -/

/-- The engine has passed by the last index there is, after which it only ends. -/
def Overrun (machine : Machine σ) : Prop :=
  machine.engine.next < 0 ∧ machine.remaining = 0

/-- The same engine over the same shelf is in lockstep, in the bounds of its round. -/
theorem Lockstep.same (lockstep : Lockstep scene chain machine)
    (shelf : scene.shelf next.world = scene.shelf machine.world)
    (engine : next.engine = machine.engine)
    (round : next.remaining ≠ 0 → 0 ≤ machine.engine.next.toInt ∧
      machine.engine.next.toInt + next.remaining ≤ 9223372036854775808) :
    Lockstep scene chain next where
  toInStep := lockstep.toInStep.same shelf (by rw [engine]) (by rw [engine])
  ahead := engine ▸ lockstep.ahead
  round := engine ▸ round

/-- A round ends at the last index at most. -/
theorem round_of_began {last : Int64} (natural : 0 ≤ machine.engine.next)
    (more : machine.engine.roundSize last ≠ 0) :
    0 ≤ machine.engine.next.toInt ∧
      machine.engine.next.toInt + machine.engine.roundSize last ≤ 9223372036854775808 := by
  have lower : 0 ≤ machine.engine.next.toInt := Int64.le_iff_toInt_le.1 natural
  have upper := Words.toInt_lt (machine.engine.roundEnd last)
  unfold Engine.roundSize at more ⊢
  omega

/-- An index without a block is passed by. -/
theorem Lockstep.skip (lockstep : Lockstep scene chain machine) {left : Nat} {world : σ}
    (round : machine.remaining = left + 1)
    (shelf : scene.shelf world = scene.shelf machine.world) :
    Lockstep scene chain ⟨machine.engine.skip, left, world⟩ ∨
      InStep scene chain ⟨machine.engine.skip, left, world⟩ ∧
        Overrun (⟨machine.engine.skip, left, world⟩ : Machine σ) := by
  have inStep : InStep scene chain ⟨machine.engine.skip, left, world⟩ :=
    lockstep.toInStep.same shelf rfl rfl
  have bounds := lockstep.round (by omega)
  have upper := Words.toInt_lt machine.engine.next
  by_cases last : machine.engine.next = Int64.maxValue
  · refine Or.inr ⟨inStep, ?_, ?_⟩
    · change machine.engine.next + 1 < 0
      rw [last]
      decide
    · change left = 0
      rw [last, Int64.toInt_maxValue] at bounds
      omega
  · have successor := Words.toInt_succ (Words.ne_maxValue_iff.1 last)
    refine Or.inl ⟨inStep, fun newest isNewest => ?_, fun more => ?_⟩
    · have below := Int64.lt_iff_toInt_lt.1 (lockstep.ahead newest isNewest)
      change newest.id.index < machine.engine.next + 1
      rw [Int64.lt_iff_toInt_lt, successor]
      omega
    · change 0 ≤ (machine.engine.next + 1).toInt ∧ (machine.engine.next + 1).toInt + left ≤ _
      rw [successor]
      omega

/-- Below the last index there is, the engine goes on above the head. -/
theorem Lockstep.skip_of_lt (lockstep : Lockstep scene chain machine) {left : Nat} {world : σ}
    (round : machine.remaining = left + 1)
    (shelf : scene.shelf world = scene.shelf machine.world)
    (below : machine.engine.next.toInt < 9223372036854775807) :
    machine.engine.skip.next.toInt = machine.engine.next.toInt + 1 ∧
      Lockstep scene chain ⟨machine.engine.skip, left, world⟩ := by
  have bounds := lockstep.round (by omega)
  have successor : machine.engine.skip.next.toInt = machine.engine.next.toInt + 1 :=
    Words.toInt_succ below
  rcases lockstep.skip round shelf with lockstepNext | ⟨-, overrun⟩
  · exact ⟨successor, lockstepNext⟩
  · have negative := Int64.lt_iff_toInt_lt.1 overrun.1
    change machine.engine.skip.next.toInt < (0 : Int64).toInt at negative
    rw [successor, Int64.toInt_zero] at negative
    omega

/-- A step that goes on leaves the engine and the store in lockstep, or passes by the
last index. -/
theorem Lockstep.step (lockstep : Lockstep scene chain machine) (serves : scene.Serves Servable)
    (stepped : machine.step scene.around scene.handler final = .running next) :
    ∃ changed, Lockstep scene changed next ∨ InStep scene changed next ∧ Overrun next := by
  have move := Machine.move_step scene.around scene.handler final machine
  rw [stepped] at move
  cases move with
  | noticed spent _ _ =>
      exact ⟨chain, Or.inl (lockstep.same (scene.shelf_status _) rfl lockstep.round)⟩
  | rested spent _ _ _ =>
      refine ⟨chain, Or.inl (lockstep.same ?_ rfl lockstep.round)⟩
      exact (scene.shelf_rest _ _).trans (scene.shelf_status _)
  | began status spent natural answer reached =>
      exact ⟨chain, Or.inl (lockstep.same (scene.shelf_status _) rfl (round_of_began natural))⟩
  | interrupted left round answer =>
      exact ⟨chain, Or.inl (lockstep.same (scene.shelf_asked _) rfl fun none => absurd rfl none)⟩
  | skipped left round answer => exact ⟨chain, lockstep.skip round (scene.shelf_asked _)⟩
  | decided decision =>
      obtain ⟨changed, lockstepNext, -⟩ := lockstep.decision serves decision
      exact ⟨changed, Or.inl lockstepNext⟩

/-- An engine that has passed by the last index does not go on. -/
theorem Overrun.step_ne_running (overrun : Overrun machine) (around : Surroundings σ)
    (handler : Handler σ) (final : Int64) (next : Machine σ) :
    machine.step around handler final ≠ .running next := by
  intro stepped
  have negative := Int64.not_le.2 overrun.1
  have move := Machine.move_step around handler final machine
  rw [stepped] at move
  cases move with
  | noticed spent natural _ => exact negative natural
  | rested spent natural _ _ => exact negative natural
  | began status spent natural answer reached => exact negative natural
  | interrupted left round answer => cases overrun.2.symm.trans round
  | skipped left round answer => cases overrun.2.symm.trans round
  | decided decision =>
      cases decision with
      | added left block round => cases overrun.2.symm.trans round
      | removed left block last round => cases overrun.2.symm.trans round

/-! ## Runs -/

/-- A run from an engine in lockstep stays in lockstep as long as there are indices. -/
theorem Lockstep.reached {first : Machine σ} (lockstep : Lockstep scene chain first)
    (serves : scene.Serves Servable)
    (reached : Machine.Reached scene.around scene.handler final first machine) :
    ∃ changed, Lockstep scene changed machine ∨ InStep scene changed machine ∧ Overrun machine := by
  induction reached with
  | start => exact ⟨chain, Or.inl lockstep⟩
  | step _ stepped ih =>
      obtain ⟨changed, lockstepBefore | ⟨-, overrun⟩⟩ := ih
      · exact lockstepBefore.step serves stepped
      · exact absurd stepped (overrun.step_ne_running _ _ _ _)

/-- After every decision, the engine and the store are in lockstep. -/
theorem Lockstep.decided {first : Machine σ} (lockstep : Lockstep scene chain first)
    (serves : scene.Serves Servable)
    (decided : Machine.Decided scene.around scene.handler final first machine) :
    ∃ changed, Lockstep scene changed machine := by
  cases decided with
  | start => exact ⟨chain, lockstep⟩
  | decision reached stepped decision =>
      obtain ⟨changed, lockstepBefore | ⟨-, overrun⟩⟩ := lockstep.reached serves reached
      · obtain ⟨after, lockstepAfter, -⟩ := lockstepBefore.decision serves decision
        exact ⟨after, lockstepAfter⟩
      · exact absurd stepped (overrun.step_ne_running _ _ _ _)

/-! ## Failures -/

/-- Whatever is asked of the handler, it can take back the last block of the window;
and it can add a block that the engine hands over, unless the hash of the block is
stored or the window has run empty above blocks that are stored still. -/
structure Dependable (scene : Scene σ) (machine : Machine σ) : Prop where
  removal : ∀ last ∈ machine.engine.window.head?,
    (scene.handler.removed last (machine.asked scene.around)).1 = .ok ()
  addition : ∀ block error, Servable block → block.id.index = machine.engine.next →
    (∀ last ∈ machine.engine.window.head?, block.parent = last) →
    (scene.handler.added block (machine.asked scene.around)).1 = .error error →
    (error = additionFailure block (.duplicateBlock block.id.display) ∨
      machine.engine.window = [] ∧ ∃ head : BlockId, block.parent ≠ head ∧
        error = additionFailure block (.notChildOfHead block.id.display head.display)) ∧
    (scene.shelf (scene.handler.added block (machine.asked scene.around)).2).session.database =
      (scene.shelf machine.world).session.database

/-- In lockstep, the handler can be depended on. -/
theorem Lockstep.dependable (lockstep : Lockstep scene chain machine) :
    Dependable scene machine where
  removal last newest := by
    obtain ⟨head, older, rfl, rfl⟩ := lockstep.exists_newest newest
    exact lockstep.removal.1
  addition block error servable place child refused := by
    cases lockstep.addition servable place with
    | granted _ result _ =>
        rw [result] at refused
        cases refused
    | refused cause reason result _ same =>
        cases result.symm.trans refused
        rw [scene.shelf_asked] at same
        refine ⟨?_, same⟩
        rcases reason with ⟨rfl, -⟩ | ⟨head, isHead, other, rfl⟩
        · exact Or.inl rfl
        · refine Or.inr ⟨?_, head.id, other, rfl⟩
          cases window : machine.engine.window.head? with
          | none => exact List.head?_eq_none_iff.1 window
          | some last =>
              -- The last block of the window is the head, whose child the block is.
              obtain ⟨newest, older, rfl, rfl⟩ := lockstep.exists_newest window
              cases isHead
              exact absurd (child _ window) other

/-! ## From the start of a run -/

theorem startEngine_window (follower : Follower) (cacheSize : UInt64) (blocks : List Block) :
    (startEngine follower cacheSize blocks).window =
      ((Store.newestOf cacheSize.toNat blocks).map Block.id).take Engine.defaultWindowLimit := by
  change (((Store.newestOf cacheSize.toNat blocks).reverse.map Block.id).reverse).take _ = _
  rw [List.map_reverse, List.reverse_reverse]
  rfl

/-- The head is the last block of the window. -/
theorem head?_startEngine (follower : Follower) {cacheSize : UInt64}
    (takes : 1 ≤ cacheSize.toNat) (newest : Block) (older : List Block) :
    (startEngine follower cacheSize (newest :: older)).window.head? = some newest.id := by
  rw [startEngine_window, Store.newestOf, Store.blocksWithin_cons, if_pos (by omega)]
  rfl

/-- An engine that a run starts with has the upper end of the chain for its window. -/
theorem inStep_startEngine {world : σ} (follower : Follower) (cacheSize : UInt64)
    (keeps : (scene.shelf world).Keeps Holds chain)
    (proper : ∀ block ∈ chain,
      0 ≤ block.id.index.toInt ∧ block.id.index.toInt < 9223372036854775807) :
    InStep scene chain ⟨startEngine follower cacheSize chain, 0, world⟩ where
  keeps := keeps
  proper := proper
  window := by
    dsimp only
    rw [startEngine_window]
    exact (List.take_prefix _ _).trans ((Store.newestOf_isPrefix keeps.kept.falling _).map _)
  limit := rfl
  limited := by
    dsimp only
    rw [startEngine_window]
    exact List.length_take_le _ _

/-- A run begins in lockstep. -/
theorem lockstep_of_settled {follower : Follower} {cacheSize : UInt64} {start : Int64} {world : σ}
    (keeps : (scene.shelf world).Keeps Holds chain)
    (proper : ∀ block ∈ chain,
      0 ≤ block.id.index.toInt ∧ block.id.index.toInt < 9223372036854775807)
    (place : StartsAbove start chain)
    (settled : Machine.settle scene.around start ⟨startEngine follower cacheSize chain, 0, world⟩ =
      .running machine) :
    Lockstep scene chain machine := by
  have begins := inStep_startEngine follower cacheSize keeps proper
  unfold Machine.settle at settled
  split at settled
  next given =>
    cases settled
    rcases place with ⟨none, -⟩ | ⟨-, below⟩
    · exact absurd none given
    · exact ⟨begins.same rfl rfl rfl, below, fun none => absurd rfl none⟩
  next notGiven =>
    rcases place with ⟨-, rfl⟩ | ⟨natural, -⟩
    · split at settled
      next => cases settled
      next =>
        dsimp only at settled
        split at settled
        · cases settled
        · cases settled
        next status answer =>
          cases settled
          exact ⟨begins.same (scene.shelf_status world) rfl rfl, fun _ none => (nomatch none),
            fun none => absurd rfl none⟩
    · rw [not_not.1 notGiven] at natural
      exact absurd natural (by decide)

/-- From any store that holds a chain, and whatever the remote node answers, the engine
and the store are in lockstep once the start is settled and after every decision; on
the way, decisions fail only where the store has to refuse a block. -/
theorem engine_store_lockstep {follower : Follower} {start first final : Int64} {engine : Engine}
    {world prepared : σ}
    (indexed : ∀ worker ∈ follower.workers, worker = Worker.transactionIndex)
    (holdsAt : scene.HoldsAt chain world) (serves : scene.Serves Servable)
    (ready : follower.prepare scene.ledger start world = (.ok (first, engine), prepared))
    (settled : Machine.settle scene.around first ⟨engine, 0, prepared⟩ = .running machine) :
    (∀ later, Machine.Decided scene.around scene.handler final machine later →
      ∃ changed, Lockstep scene changed later) ∧
    (∀ later, Machine.Reached scene.around scene.handler final machine later →
      later.remaining ≠ 0 → Dependable scene later) := by
  have tame : ∀ worker ∈ follower.workers, worker.Tame := by
    intro worker member
    rw [indexed worker member]
    exact Worker.tame_transactionIndex
  obtain ⟨left, suffix, keeps, rfl, place⟩ := Scene.prepare_ok holdsAt tame ready
  have lockstep : Lockstep scene left machine := lockstep_of_settled keeps
    (fun block member => holdsAt.proper block (suffix.subset member)) place settled
  refine ⟨fun later decided => lockstep.decided serves decided, fun later reached more => ?_⟩
  obtain ⟨changed, lockstepLater | ⟨-, overrun⟩⟩ := lockstep.reached serves reached
  · exact lockstepLater.dependable
  · exact absurd overrun.2 more

/-- A follower that keeps the transaction index. -/
def indexingFollower : Follower := ⟨[Worker.transactionIndex], 1⟩

theorem tame_indexingFollower : ∀ worker ∈ indexingFollower.workers, worker.Tame := by
  intro worker member
  rw [List.mem_singleton.1 member]
  exact Worker.tame_transactionIndex

/-- A block that is no child of the first block. -/
def orphanBlock : Block := ⟨⟨1, "c"⟩, ⟨0, "b"⟩, 0, [], none⟩

/-- A node that serves the orphan at every index. -/
def orphanScene : Scene Books :=
  .ofChain ⟨orphanBlock.id, 0, ⟨0, "b"⟩, none, []⟩ fun _ => some orphanBlock

/-- The first block is stored, and the remote node has another chain. -/
theorem engine_store_lockstep_orphanBlock :
    ∃ first engine prepared machine,
      indexingFollower.prepare orphanScene.ledger (-1) (Scene.booksOf Store.firstShelf) =
        (.ok (first, engine), prepared) ∧
      Machine.settle orphanScene.around first ⟨engine, 0, prepared⟩ = .running machine ∧
      (∀ later, Machine.Decided orphanScene.around orphanScene.handler 1 machine later →
        ∃ changed, Lockstep orphanScene changed later) ∧
      (∀ later, Machine.Reached orphanScene.around orphanScene.handler 1 machine later →
        later.remaining ≠ 0 → Dependable orphanScene later) := by
  have indexed : ∀ worker ∈ indexingFollower.workers, worker = Worker.transactionIndex :=
    fun _ member => List.mem_singleton.1 member
  have tame : ∀ worker ∈ indexingFollower.workers, worker.Tame :=
    fun worker member => indexed worker member ▸ Worker.tame_transactionIndex
  have room : Store.firstShelf.store.HasRoom :=
    Store.BlockStore.hasRoom_iff.2 (by rw [Store.cacheSize_firstShelf]; decide)
  have holdsAt : orphanScene.HoldsAt [Store.firstBlock] (Scene.booksOf Store.firstShelf) :=
    ⟨Store.firstShelf_keeps.sound, Store.firstShelf_keeps.kept, by decide⟩
  have serves : orphanScene.Serves Servable := by
    rintro index ahead world block ⟨⟩
    exact ⟨Json.decode?_encode_bareBlock _ _ _, by decide, by decide⟩
  obtain ⟨prepared, ready, -⟩ := Scene.prepare_resume indexingFollower holdsAt (fun _ => room) tame
  have settled : Machine.settle orphanScene.around (resumeIndex [Store.firstBlock])
      ⟨startEngine indexingFollower
        (orphanScene.shelf (Scene.booksOf Store.firstShelf)).store.cacheSize [Store.firstBlock],
        0, prepared⟩ = .running _ := if_pos (by decide)
  exact ⟨_, _, _, _, ready, settled, engine_store_lockstep indexed holdsAt serves ready settled⟩

end ChainFollower.Sync
