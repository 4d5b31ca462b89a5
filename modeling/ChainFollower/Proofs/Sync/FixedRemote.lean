import ChainFollower.Proofs.Sync.Lockstep

/-!
# A remote node that does not change

A fixed chain of the remote node, which may omit indices, and what a step does when
every answer is taken from it.
-/

namespace ChainFollower.Sync

open Store (Durable)

/-- A chain with its first and last index: every block is where it says, the first is
its own parent, and each other one is the child of the block before it. -/
structure RemoteChain (remote : Int64 → Option Block) (genesis tip : Int64) : Prop where
  natural : 0 ≤ genesis
  small : tip.toInt < 4611686018427387904
  place : ∀ {index block}, remote index = some block →
    block.id.index = index ∧ genesis ≤ index ∧ index ≤ tip
  first : ∃ block, remote genesis = some block ∧ block.parent = block.id
  last : ∃ block, remote tip = some block
  linked : ∀ {index block}, remote index = some block → index ≠ genesis →
    ∃ below lower, remote below = some lower ∧ below < index ∧ block.parent = lower.id ∧
      ∀ between, below < between → between < index → remote between = none
  durable : ∀ {index block}, remote index = some block → Durable block
  distinct : ∀ {left right leftBlock rightBlock}, remote left = some leftBlock →
    remote right = some rightBlock → leftBlock.id.hash = rightBlock.id.hash →
    leftBlock = rightBlock

variable {σ : Type} {remote : Int64 → Option Block} {genesis tip final index : Int64}
  {scene : Scene σ} {machine : Machine σ} {block : Block} {left : Nat}

/-- The remote node answers from one chain, and nobody cancels. -/
structure Scene.Fixed (scene : Scene σ) (remote : Int64 → Option Block) (genesis tip : Int64) :
    Prop where
  uncancelled : ∀ world, scene.around.cancelled world = false
  status : ∀ world, ∃ status, (scene.around.status world).1 = some (.ok status) ∧
    (∃ first, remote genesis = some first ∧ status.genesis = first.id) ∧
    ∃ newest, remote tip = some newest ∧ status.current = newest.id
  block : ∀ index ahead world, (scene.around.block index ahead world).1 = some (.ok (remote index))

/-- A node that answers from a chain is fixed. -/
theorem Scene.fixed_ofChain {first newest : Block} (timestamp : Int64)
    (foundFirst : remote genesis = some first) (foundNewest : remote tip = some newest) :
    (Scene.ofChain ⟨newest.id, timestamp, first.id, none, []⟩ remote).Fixed remote genesis tip where
  uncancelled _ := rfl
  status _ := ⟨_, rfl, ⟨first, foundFirst, rfl⟩, newest, foundNewest, rfl⟩
  block _ _ _ := rfl

namespace RemoteChain

/-- Above the first block, every block is above its parent. -/
theorem not_stray (chain : RemoteChain remote genesis tip) (found : remote index = some block) :
    ¬Store.Stray block := by
  rintro ⟨sameHash, other⟩
  by_cases isFirst : index = genesis
  · obtain ⟨first, foundFirst, ownParent⟩ := chain.first
    rw [isFirst, foundFirst] at found
    cases found
    exact other ownParent
  · obtain ⟨below, lower, foundLower, less, parent, -⟩ := chain.linked found isFirst
    rw [parent] at sameHash
    have same := chain.distinct foundLower found sameHash
    rw [← (chain.place foundLower).1, same, (chain.place found).1] at less
    exact Int64.lt_irrefl less

/-- Indices of the chain are natural numbers with a successor. -/
theorem proper (chain : RemoteChain remote genesis tip) (found : remote index = some block) :
    0 ≤ block.id.index.toInt ∧ block.id.index.toInt < 9223372036854775807 := by
  obtain ⟨place, lower, upper⟩ := chain.place found
  have natural := Int64.le_iff_toInt_le.1 (Int64.le_trans chain.natural lower)
  have small := chain.small
  have bound := Int64.le_iff_toInt_le.1 upper
  rw [Int64.toInt_zero] at natural
  rw [place]
  omega

/-- The blocks of a store that begins with a block that is its own parent are the chain of
a remote node. -/
theorem ofBlocks {blocks : List Block} {newest oldest : Block} (orderly : Store.Orderly blocks)
    (isNewest : newest ∈ blocks.head?) (isOldest : oldest ∈ blocks.getLast?)
    (ownParent : oldest.parent = oldest.id) (natural : 0 ≤ oldest.id.index)
    (small : newest.id.index.toInt < 4611686018427387904) :
    RemoteChain (fun index => Store.atIndex? index blocks) oldest.id.index newest.id.index where
  natural := natural
  small := small
  place := by
    intro index block found
    obtain ⟨member, place⟩ := Store.mem_of_atIndex? found
    refine ⟨place, ?_, ?_⟩
    · obtain ⟨upper, rfl⟩ := List.getLast?_eq_some_iff.1 isOldest
      rcases List.mem_append.1 member with member | member
      · exact place ▸ Int64.le_of_lt (orderly.lt_of_append member List.mem_cons_self)
      · rw [← place, List.mem_singleton.1 member]
        exact Int64.le_refl _
    · obtain ⟨older, rfl⟩ := List.head?_eq_some_iff.1 isNewest
      rcases List.mem_cons.1 member with rfl | member
      · exact place ▸ Int64.le_refl _
      · exact place ▸ Int64.le_of_lt (orderly.lt_newest member)
  first := ⟨oldest, orderly.atIndex?_of_mem (List.mem_of_getLast? isOldest), ownParent⟩
  last := ⟨newest, orderly.atIndex?_of_mem (List.mem_of_mem_head? isNewest)⟩
  linked := by
    intro index block found other
    obtain ⟨member, rfl⟩ := Store.mem_of_atIndex? found
    obtain ⟨upper, rest, rfl⟩ := List.append_of_mem member
    cases rest with
    | nil =>
        rw [List.getLast?_append] at isOldest
        cases isOldest
        exact absurd rfl other
    | cons lower rest =>
        have below := orderly.of_append
        refine ⟨lower.id.index, lower, orderly.atIndex?_of_mem ?_,
          below.lt_newest List.mem_cons_self, below.parent_newest, fun between above less => ?_⟩
        · exact List.mem_append_right _ (List.mem_cons_of_mem _ List.mem_cons_self)
        · refine Store.atIndex?_eq_none_iff.2 fun other member same => ?_
          subst same
          rcases List.mem_append.1 member with member | member
          · exact Int64.lt_asymm less (orderly.lt_of_append member List.mem_cons_self)
          · rcases List.mem_cons.1 member with rfl | member
            · exact Int64.lt_irrefl less
            · rcases List.mem_cons.1 member with rfl | member
              · exact Int64.lt_irrefl above
              · exact Int64.lt_asymm above (below.tail.lt_newest member)
  durable found := orderly.durable _ (Store.mem_of_atIndex? found).1
  distinct := by
    intro left right leftBlock rightBlock leftFound rightFound same
    have leftHash := orderly.withHash?_of_mem (Store.mem_of_atIndex? leftFound).1
    have rightHash := orderly.withHash?_of_mem (Store.mem_of_atIndex? rightFound).1
    rw [same, rightHash] at leftHash
    exact (Option.some.inj leftHash).symm

/-- The blocks of the chain can be served. -/
theorem servable (chain : RemoteChain remote genesis tip) (found : remote index = some block) :
    Servable block where
  durable := chain.durable found
  settled := chain.not_stray found
  notLast := Words.ne_maxValue_iff.2 (chain.proper found).2

end RemoteChain

/-! ## Steps -/

namespace Scene.Fixed

/-- The status names the tip of the chain. -/
theorem exists_tip (chain : RemoteChain remote genesis tip)
    (fixed : scene.Fixed remote genesis tip) (world : σ) :
    ∃ status, (scene.around.status world).1 = some (.ok status) ∧ status.current.index = tip := by
  obtain ⟨status, answer, -, newest, found, current⟩ := fixed.status world
  exact ⟨status, answer, by rw [current, (chain.place found).1]⟩

/-- A run without a start begins at the first block of the chain. -/
theorem settle_genesis (chain : RemoteChain remote genesis tip)
    (fixed : scene.Fixed remote genesis tip) (engine : Engine) (world : σ) :
    Machine.settle scene.around (-1) ⟨engine, 0, world⟩ =
      .running (Machine.startingAt ⟨engine, 0, (scene.around.status world).2⟩ genesis) := by
  obtain ⟨status, answer, ⟨first, found, isFirst⟩, -⟩ := fixed.status world
  have index : status.genesis.index = genesis := by
    rw [isFirst, (chain.place found).1]
  simp [Machine.settle, fixed.uncancelled, answer, Machine.moved, index]

/-- When everything through the end has been handed over, the run ends. -/
theorem step_finished (chain : RemoteChain remote genesis tip)
    (fixed : scene.Fixed remote genesis tip) (spent : machine.remaining = 0)
    (natural : 0 ≤ machine.engine.next) (given : final ≠ -1) (within : final ≤ tip)
    (passed : final < machine.engine.next) :
    machine.step scene.around scene.handler final =
      .ended (.ok ()) (machine.moved (scene.around.status machine.world).2) := by
  obtain ⟨status, answer, current⟩ := fixed.exists_tip chain machine.world
  have reachable := Engine.reachable_eq given within
  have finished : machine.engine.finished final = true := by
    simp [Engine.finished, given, passed]
  simp [Machine.step, spent, Machine.beginRound, Int64.not_lt.2 natural, answer, current,
    reachable, Machine.moved, passed, Machine.idle, fixed.uncancelled, finished]

/-- A new round reaches as far as the end and the tip let it. -/
theorem step_opened (chain : RemoteChain remote genesis tip)
    (fixed : scene.Fixed remote genesis tip) (spent : machine.remaining = 0)
    (natural : 0 ≤ machine.engine.next)
    (ahead : machine.engine.next ≤ Engine.reachable tip final) :
    machine.step scene.around scene.handler final =
      .running ⟨machine.engine, machine.engine.roundSize (Engine.reachable tip final),
        (scene.around.status machine.world).2⟩ := by
  obtain ⟨status, answer, current⟩ := fixed.exists_tip chain machine.world
  simp [Machine.step, spent, Machine.beginRound, Int64.not_lt.2 natural, answer, current,
    Machine.moved, Int64.not_lt.2 ahead, fixed.uncancelled]

/-- As long as something is left to hand over, a new round begins. -/
theorem step_began (chain : RemoteChain remote genesis tip)
    (fixed : scene.Fixed remote genesis tip) (spent : machine.remaining = 0)
    (natural : 0 ≤ machine.engine.next) (given : final ≠ -1) (within : final ≤ tip)
    (ahead : machine.engine.next ≤ final) :
    machine.step scene.around scene.handler final =
      .running ⟨machine.engine, machine.engine.roundSize final,
        (scene.around.status machine.world).2⟩ := by
  have reachable := Engine.reachable_eq given within
  rw [← reachable] at ahead
  rw [fixed.step_opened chain spent natural ahead, reachable]

/-- An omitted index is passed by. -/
theorem step_skipped (fixed : scene.Fixed remote genesis tip)
    (round : machine.remaining = left + 1) (omitted : remote machine.engine.next = none) :
    machine.step scene.around scene.handler final =
      .running ⟨machine.engine.skip, left, machine.asked scene.around⟩ := by
  simp [Machine.step, round, Machine.fetch, Machine.ask, fixed.block, omitted, Machine.receive,
    fixed.uncancelled, Machine.moved, Machine.asked]

/-- A block that continues the window is handed over. -/
theorem step_added (chain : RemoteChain remote genesis tip)
    (fixed : scene.Fixed remote genesis tip) (round : machine.remaining = left + 1)
    (found : remote machine.engine.next = some block)
    (child : ∀ last ∈ machine.engine.window.head?, block.parent = last)
    (granted : (scene.handler.added block (machine.asked scene.around)).1 = .ok ()) :
    machine.step scene.around scene.handler final =
      .running ⟨machine.engine.push block.id, left,
        (scene.handler.added block (machine.asked scene.around)).2⟩ := by
  have handedOver : (machine.moved (machine.asked scene.around)).handOver scene.handler left block =
      .running ⟨machine.engine.push block.id, left,
        (scene.handler.added block (machine.asked scene.around)).2⟩ := by
    simp [Machine.handOver, Machine.moved, granted]
  have linked : (machine.moved (machine.asked scene.around)).link scene.handler left block =
      (machine.moved (machine.asked scene.around)).handOver scene.handler left block := by
    unfold Machine.link
    cases window : machine.engine.window with
    | nil => simp [Machine.moved, window]
    | cons last rest => simp [Machine.moved, window, child last (by rw [window]; rfl)]
  rw [← handedOver, ← linked]
  simp [Machine.step, round, Machine.fetch, Machine.ask, fixed.block, found, Machine.receive,
    fixed.uncancelled, Machine.moved, (chain.place found).1, Machine.asked]

/-- Any other block makes the last one of the window be taken back. -/
theorem step_removed (chain : RemoteChain remote genesis tip)
    (fixed : scene.Fixed remote genesis tip) (round : machine.remaining = left + 1)
    (found : remote machine.engine.next = some block) {last : BlockId}
    (newest : machine.engine.window.head? = some last) (other : block.parent ≠ last)
    (granted : (scene.handler.removed last (machine.asked scene.around)).1 = .ok ()) :
    machine.step scene.around scene.handler final =
      .running ⟨machine.engine.pop last, 0,
        (scene.handler.removed last (machine.asked scene.around)).2⟩ := by
  have takenBack : (machine.moved (machine.asked scene.around)).takeBack scene.handler last =
      .running ⟨machine.engine.pop last, 0,
        (scene.handler.removed last (machine.asked scene.around)).2⟩ := by
    simp [Machine.takeBack, Machine.moved, granted]
  have linked : (machine.moved (machine.asked scene.around)).link scene.handler left block =
      (machine.moved (machine.asked scene.around)).takeBack scene.handler last := by
    unfold Machine.link
    obtain ⟨rest, window⟩ := List.head?_eq_some_iff.1 newest
    simp [Machine.moved, window, other]
  rw [← takenBack, ← linked]
  simp [Machine.step, round, Machine.fetch, Machine.ask, fixed.block, found, Machine.receive,
    fixed.uncancelled, Machine.moved, (chain.place found).1, Machine.asked]

end Scene.Fixed

end ChainFollower.Sync
