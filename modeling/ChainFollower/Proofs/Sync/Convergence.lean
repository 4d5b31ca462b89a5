import ChainFollower.Proofs.Sync.Pursuit
import ChainFollower.Proofs.Sync.Runs

/-!
# Convergence

A run from a store whose window covers what the store has in common with the chain of a
remote node leaves that chain in the store, provided that there is room for the blocks to
start from.
-/

namespace ChainFollower.Sync

open Store (Holds Worker)

variable {σ : Type} {scene : Scene σ} {remote : Int64 → Option Block}
  {genesis tip final : Int64} {low top : Int} {stale shared blocks : List Block}
  {block newest : Block} {machine : Machine σ}

/-! ## Windows -/

/-- A window that a run can start from: the store is empty, or the window has the
highest block in common with the remote chain, or there is none and the window has all
blocks of the store. -/
inductive Covers (remote : Int64 → Option Block) (window : List BlockId) : List Block → Prop
  | empty : Covers remote window []
  | common {stale shared : List Block} {block : Block}
      (strangers : ∀ block ∈ stale, ∀ index, remote index ≠ some block)
      (found : ∃ index, remote index = some block) (reached : block.id ∈ window) :
      Covers remote window (stale ++ block :: shared)
  | apart {blocks : List Block}
      (strangers : ∀ block ∈ blocks, ∀ index, remote index ≠ some block)
      (reached : ∀ block ∈ blocks, block.id ∈ window) : Covers remote window blocks

/-- The lowest index of a store once it has converged: that of its oldest block, or of
the first block of the remote chain if it was empty. -/
def lowestIndex (genesis : Int64) (blocks : List Block) : Int64 :=
  match blocks.getLast? with
  | some oldest => oldest.id.index
  | none => genesis

/-- A run is about to go on right after the head. -/
structure Resumes (scene : Scene σ) (final : Int64) (newest : Block) (blocks : List Block)
    (machine : Machine σ) : Prop extends Lockstep scene blocks machine where
  isNewest : newest ∈ blocks.head?
  after : machine.engine.next.toInt = newest.id.index.toInt + 1
  spent : machine.remaining = 0
  ends : newest.id.index < final
  paced : Paced machine.engine

theorem Resumes.bounds (resumes : Resumes scene final newest blocks machine) :
    0 ≤ machine.engine.next.toInt ∧
      machine.engine.next.toInt + machine.remaining ≤ final.toInt + 1 ∧
      machine.engine.next ≤ final := by
  have ends := Int64.lt_iff_toInt_lt.1 resumes.ends
  have proper := resumes.proper newest (List.mem_of_mem_head? resumes.isNewest)
  have after := resumes.after
  have spent := resumes.spent
  rw [Int64.le_iff_toInt_le]
  omega

theorem stranger_of_ne
    (unambiguous : ∀ index found, remote index = some found →
      block.id.hash = found.id.hash → block = found)
    (strange : ∀ index, remote index ≠ some block) : Stranger remote block := by
  intro index found foundAt sameHash
  cases unambiguous index found foundAt sameHash
  exact strange index foundAt

/-- An upper end of a chain that has one of its blocks is longer than what is above
that block. -/
theorem length_lt_of_mem {window : List BlockId}
    (orderly : Store.Orderly (stale ++ block :: shared))
    (upperEnd : window <+: (stale ++ block :: shared).map Block.id) (reached : block.id ∈ window) :
    stale.length < window.length := by
  refine Nat.lt_of_not_le fun shorter => ?_
  have upperStale : window <+: stale.map Block.id := by
    refine List.prefix_of_prefix_length_le upperEnd ?_ (by rwa [List.length_map])
    rw [List.map_append]
    exact List.prefix_append _ _
  obtain ⟨twin, member, sameId⟩ := List.mem_map.1 (upperStale.subset reached)
  have distinct := orderly.distinct
  rw [List.map_append, List.nodup_append] at distinct
  exact distinct.2.2 _ (List.mem_map_of_mem member) _ List.mem_cons_self
    (congrArg BlockId.hash sameId)

/-! ## Strangers above blocks in common -/

/-- Blocks that the remote chain does not have above blocks in common, if there are any. -/
structure Splits (remote : Int64 → Option Block) (stale shared : List Block) : Prop where
  strange : ∀ block ∈ stale, ∀ index, remote index ≠ some block
  common : ∀ block ∈ shared.head?, remote block.id.index = some block

/-- Every store has strangers above blocks in common with the remote chain. -/
theorem exists_splits (rules : RemoteChain remote genesis tip) (blocks : List Block) :
    ∃ stale shared, blocks = stale ++ shared ∧ Splits remote stale shared := by
  induction blocks with
  | nil => exact ⟨[], [], rfl, fun _ none => (nomatch none), fun _ none => (nomatch none)⟩
  | cons newest older ih =>
      by_cases common : ∃ index, remote index = some newest
      · obtain ⟨index, found⟩ := common
        refine ⟨[], newest :: older, rfl, fun _ none => (nomatch none), ?_⟩
        rintro _ ⟨⟩
        rwa [(rules.place found).1]
      · obtain ⟨stale, shared, rfl, splits⟩ := ih
        refine ⟨newest :: stale, shared, rfl, fun block member => ?_, splits.common⟩
        rcases List.mem_cons.1 member with rfl | member
        · exact fun index found => common ⟨index, found⟩
        · exact splits.strange block member

/-- A block with the hash of a block of the remote chain is that block. -/
def Unambiguous (remote : Int64 → Option Block) (blocks : List Block) : Prop :=
  ∀ block ∈ blocks, ∀ index found, remote index = some found →
    block.id.hash = found.id.hash → block = found

/-- A run that goes on after strangers has to take them back. -/
theorem Resumes.pending (resumes : Resumes scene final newest (stale ++ shared) machine)
    (some : stale ≠ []) (strangers : ∀ block ∈ stale, Stranger remote block)
    (agrees : Agrees remote low top shared) (lowest : low ≤ top)
    (above : ∀ block ∈ stale, top ≤ block.id.index.toInt)
    (bottom : shared = [] → ∀ oldest ∈ stale.getLast?, oldest.id.index.toInt = top) :
    Pending scene remote low final stale shared top machine := by
  have bounds := resumes.bounds
  have after := resumes.after
  have aboveNewest : top ≤ newest.id.index.toInt := by
    obtain ⟨first, rest, rfl⟩ := List.exists_cons_of_ne_nil some
    cases resumes.isNewest
    exact above newest List.mem_cons_self
  have approach : Approach scene remote low final stale shared top machine :=
    ⟨resumes.toLockstep, strangers, agrees, lowest, bounds.1, bounds.2.1, resumes.paced⟩
  have founded : stale ++ shared ≠ [] := List.append_ne_nil_of_left_ne_nil some shared
  exact ⟨approach, above, by omega, Or.inl some, founded, bottom, bounds.2.2⟩

namespace Splits

variable {oldest : Block} (splits : Splits remote stale shared)
  (rules : RemoteChain remote genesis tip) (unambiguous : Unambiguous remote (stale ++ shared))

include splits unambiguous

theorem strangers : ∀ block ∈ stale, Stranger remote block := fun block member =>
  stranger_of_ne (unambiguous block (List.mem_append_left _ member)) (splits.strange block member)

include rules

/-- The blocks in common are those of the remote chain below the strangers. -/
theorem agrees (orderly : Store.Orderly (stale ++ shared)) (isCommon : block ∈ shared.head?)
    (isOldest : oldest ∈ shared.getLast?) :
    Agrees remote oldest.id.index.toInt (block.id.index.toInt + 1) shared ∧
      oldest.id.index ≤ block.id.index := by
  obtain ⟨rest, rfl⟩ := List.head?_eq_some_iff.1 isCommon
  have agrees := agrees_of_common rules orderly.of_append (splits.common block rfl)
    (fun other member => unambiguous other
      (List.mem_append_right _ (List.mem_cons_of_mem _ member))) isOldest
  obtain ⟨index, above, below, -⟩ := (agrees block).1 List.mem_cons_self
  exact ⟨agrees, Int64.le_iff_toInt_le.2 (by omega)⟩

/-- A run that goes on after such a store has to take the strangers back. -/
theorem exists_pending (resumes : Resumes scene final newest (stale ++ shared) machine)
    (some : stale ≠ []) (isOldest : oldest ∈ (stale ++ shared).getLast?) :
    ∃ top, Pending scene remote oldest.id.index.toInt final stale shared top machine := by
  have orderly := resumes.keeps.kept.toOrderly
  have strangers := splits.strangers unambiguous
  cases shared with
  | cons block shared =>
      rw [List.getLast?_append_of_ne_nil _ (List.cons_ne_nil _ _)] at isOldest
      obtain ⟨agrees, lowest⟩ := splits.agrees rules unambiguous orderly rfl isOldest
      have order := Int64.le_iff_toInt_le.1 lowest
      refine ⟨_, resumes.pending some strangers agrees (by omega) (fun other member => ?_)
        fun empty => nomatch empty⟩
      exact Int64.lt_iff_toInt_lt.1 (orderly.lt_of_append member List.mem_cons_self)
  | nil =>
      rw [List.append_nil] at isOldest orderly
      refine ⟨_, resumes.pending some strangers (.empty remote _) (Int.le_refl _)
        (fun other member => ?_) fun _ last isLast => ?_⟩
      · obtain ⟨upper, rfl⟩ := List.getLast?_eq_some_iff.1 isOldest
        rcases List.mem_append.1 member with member | member
        · have less := orderly.lt_of_append member List.mem_cons_self
          exact Int.le_of_lt (Int64.lt_iff_toInt_lt.1 less)
        · cases List.mem_singleton.1 member
          exact Int.le_refl _
      · cases isOldest.symm.trans isLast
        rfl

end Splits

namespace Pursuit

variable (pursuit : Pursuit scene remote genesis tip final)

include pursuit

/-- A run that has to take blocks back converges if its window reaches down far enough. -/
theorem converges_of_pending (pending : Pending scene remote low final stale shared top machine)
    (covered : stale.length < machine.engine.window.length ∨
      shared = [] ∧ stale ≠ [] ∧ stale.length ≤ machine.engine.window.length) :
    Converges scene remote low final machine :=
  pursuit.converges_of_dirty ⟨pending.toApproach, pending.above, pending.reached, pending.behind,
    covered, pending.bottom, pending.notPast⟩

/-- A run that goes on after a block in common converges. -/
theorem converges_of_shared {oldest : Block}
    (resumes : Resumes scene final newest shared machine) (splits : Splits remote [] shared)
    (unambiguous : Unambiguous remote shared) (isOldest : oldest ∈ shared.getLast?) :
    Converges scene remote oldest.id.index.toInt final machine := by
  have orderly := resumes.keeps.kept.toOrderly
  have bounds := resumes.bounds
  have after := resumes.after
  obtain ⟨agrees, lowest⟩ :=
    splits.agrees pursuit.rules unambiguous orderly resumes.isNewest isOldest
  have order := Int64.le_iff_toInt_le.1 lowest
  have clean : Clean scene remote oldest.id.index.toInt final shared machine := by
    rw [Clean, after]
    exact ⟨resumes.toLockstep, fun _ none => (nomatch none), agrees, by omega, bounds.1,
      bounds.2.1, resumes.paced⟩
  exact pursuit.converges_of_clean clean

/-- A run that goes on after a head with something in common below it, within the
window, converges. -/
theorem converges_of_common {oldest : Block}
    (resumes : Resumes scene final newest (stale ++ block :: shared) machine)
    (isOldest : oldest ∈ (block :: shared).getLast?)
    (unambiguous : ∀ stored ∈ stale ++ block :: shared, ∀ index found,
      remote index = some found → stored.id.hash = found.id.hash → stored = found)
    (strangers : ∀ block ∈ stale, ∀ index, remote index ≠ some block)
    (found : remote block.id.index = some block) (reached : block.id ∈ machine.engine.window) :
    Converges scene remote oldest.id.index.toInt final machine := by
  have splits : Splits remote stale (block :: shared) := ⟨strangers, by rintro _ ⟨⟩; exact found⟩
  by_cases some : stale = []
  · subst some
    exact pursuit.converges_of_shared resumes splits unambiguous isOldest
  · have isLast : oldest ∈ (stale ++ block :: shared).getLast? := by
      rwa [List.getLast?_append_of_ne_nil _ (List.cons_ne_nil _ _)]
    obtain ⟨top, pending⟩ := splits.exists_pending pursuit.rules unambiguous resumes some isLast
    exact pursuit.converges_of_pending pending
      (Or.inl (length_lt_of_mem resumes.keeps.kept.toOrderly resumes.window reached))

/-- A run that goes on after a head with nothing in common below it converges if the
window has the whole store. -/
theorem converges_of_apart {oldest : Block}
    (resumes : Resumes scene final newest blocks machine) (isOldest : oldest ∈ blocks.getLast?)
    (unambiguous : ∀ block ∈ blocks, ∀ index found, remote index = some found →
      block.id.hash = found.id.hash → block = found)
    (strangers : ∀ block ∈ blocks, ∀ index, remote index ≠ some block)
    (reached : ∀ block ∈ blocks, block.id ∈ machine.engine.window) :
    Converges scene remote oldest.id.index.toInt final machine := by
  have nonempty : blocks ≠ [] := List.ne_nil_of_mem (List.mem_of_mem_head? resumes.isNewest)
  have splits : Splits remote blocks [] := ⟨strangers, fun _ none => (nomatch none)⟩
  have orderly := resumes.keeps.kept.toOrderly
  have covered : blocks.length ≤ machine.engine.window.length := by
    obtain ⟨upper, rfl⟩ := List.getLast?_eq_some_iff.1 isOldest
    rw [List.length_append]
    exact length_lt_of_mem orderly resumes.window
      (reached oldest (List.mem_append_right _ List.mem_cons_self))
  rw [← List.append_nil blocks] at resumes unambiguous isOldest
  obtain ⟨top, pending⟩ :=
    splits.exists_pending pursuit.rules unambiguous resumes nonempty isOldest
  exact pursuit.converges_of_pending pending (Or.inr ⟨rfl, nonempty, covered⟩)

/-- A run that goes on after a head converges if its window covers what the store has in
common with the remote chain. -/
theorem converges_of_covers
    (resumes : Resumes scene final newest blocks machine)
    (unambiguous : ∀ block ∈ blocks, ∀ index found, remote index = some found →
      block.id.hash = found.id.hash → block = found)
    (covers : Covers remote machine.engine.window blocks) :
    Converges scene remote (lowestIndex genesis blocks).toInt final machine := by
  cases covers with
  | empty => cases resumes.isNewest
  | @common stale shared block strangers found reached =>
      obtain ⟨index, foundAt⟩ := found
      have found : remote block.id.index = some block := by
        rwa [(pursuit.rules.place foundAt).1]
      obtain ⟨oldest, isOldest⟩ := Option.isSome_iff_exists.1
        (List.getLast?_isSome.2 (List.cons_ne_nil block shared))
      have lowest : lowestIndex genesis (stale ++ block :: shared) = oldest.id.index := by
        rw [lowestIndex, List.getLast?_append, isOldest]
        rfl
      rw [lowest]
      exact pursuit.converges_of_common resumes isOldest unambiguous strangers found reached
  | apart strangers reached =>
      obtain ⟨oldest, isOldest⟩ := Option.isSome_iff_exists.1
        (List.getLast?_isSome.2 (List.ne_nil_of_mem (List.mem_of_mem_head? resumes.isNewest)))
      have lowest : lowestIndex genesis blocks = oldest.id.index := by
        rw [lowestIndex, isOldest]
      rw [lowest]
      exact pursuit.converges_of_apart resumes isOldest unambiguous strangers reached

/-- A run without a start begins at the first block of the remote chain. -/
theorem settle_genesis (engine : Engine) (world : σ) :
    Machine.settle scene.around (-1) ⟨engine, 0, world⟩ =
      .running (Machine.startingAt ⟨engine, 0, (scene.around.status world).2⟩ genesis) :=
  pursuit.fixed.settle_genesis pursuit.rules engine world

/-- On an empty store, a run that begins at the first block converges. -/
theorem converges_of_empty (lockstep : Lockstep scene [] machine)
    (begins : machine.engine.next = genesis) (spent : machine.remaining = 0)
    (paced : Paced machine.engine) :
    Converges scene remote genesis.toInt final machine := by
  have natural : 0 ≤ genesis.toInt := Int64.le_iff_toInt_le.1 pursuit.rules.natural
  have reached := Int64.le_iff_toInt_le.1 pursuit.natural
  have clean : Clean scene remote genesis.toInt final [] machine := by
    rw [Clean, begins]
    refine ⟨lockstep, fun _ none => (nomatch none), .empty remote _, Int.le_refl _, ?_, ?_, paced⟩
    · rwa [begins]
    · rw [begins]
      omega
  exact pursuit.converges_of_clean clean

end Pursuit

/-- The pace of the engine that a run starts with. -/
theorem startEngine_paced {follower : Follower} (cacheSize : UInt64) (blocks : List Block)
    (paced : follower.concurrency.toNat * 16 < 4611686018427387904) :
    Paced (startEngine follower cacheSize blocks) := by
  change 1 ≤ (max follower.concurrency 1).toNat ∧
    (max follower.concurrency 1).toNat * 16 < 4611686018427387904
  rw [Words.toNat_max_one]
  omega

/-- A run that converges leaves the blocks of the remote chain in a range. -/
theorem Converges.sync {follower : Follower} {start first lowest : Int64} {engine : Engine}
    {world prepared : σ} (converges : Converges scene remote lowest.toInt final machine)
    (ready : follower.prepare scene.ledger start world = (.ok (first, engine), prepared))
    (settled : Machine.settle scene.around first ⟨engine, 0, prepared⟩ = .running machine) :
    ∃ steps after, (∀ fuel, follower.sync scene.around scene.ledger start final (steps + fuel)
        world = (some (.ok ()), after)) ∧
      ∃ chain, (scene.shelf after).Keeps Holds chain ∧
        ∀ block, block ∈ chain ↔ ∃ index, lowest ≤ index ∧ index ≤ final ∧
          remote index = some block := by
  obtain ⟨steps, last, ran, chain, keeps, agrees⟩ := converges
  refine ⟨steps, last.world, fun fuel => ?_, chain, keeps, fun block => ?_⟩
  · rw [Follower.sync_of_running ready settled, ← Scene.handler, ran]
  · rw [agrees block]
    simp only [Int64.le_iff_toInt_le, Int.lt_add_one_iff]

/-- Against a remote node that does not change, a run from a store with room for the blocks to
start from, and whose window covers what the store has in common with the remote chain, ends
well, and leaves exactly the blocks of the remote chain from the lowest index through the
end. -/
theorem sync_converges {follower : Follower} {world : σ}
    (tame : ∀ worker ∈ follower.workers, worker.Tame)
    (paced : follower.concurrency.toNat * 16 < 4611686018427387904)
    (holdsAt : scene.HoldsAt blocks world)
    (room : blocks ≠ [] → (scene.shelf world).store.HasRoom)
    (pursuit : Pursuit scene remote genesis tip final)
    (unambiguous : ∀ block ∈ blocks, ∀ index found, remote index = some found →
      block.id.hash = found.id.hash → block = found)
    (ahead : ∀ newest ∈ blocks.head?, newest.id.index < final)
    (covers : Covers remote
      (startEngine follower (scene.shelf world).store.cacheSize blocks).window blocks) :
    ∃ steps after, (∀ fuel, follower.sync scene.around scene.ledger (-1) final (steps + fuel)
        world = (some (.ok ()), after)) ∧
      ∃ chain, (scene.shelf after).Keeps Holds chain ∧
        ∀ block, block ∈ chain ↔ ∃ index, lowestIndex genesis blocks ≤ index ∧ index ≤ final ∧
          remote index = some block := by
  obtain ⟨prepared, ready, keeps⟩ := Scene.prepare_resume follower holdsAt room tame
  have paceStart := startEngine_paced (scene.shelf world).store.cacheSize blocks paced
  have place := startsAbove_resumeIndex holdsAt.proper
  cases blocks with
  | nil =>
      have settled := pursuit.settle_genesis
        (startEngine follower (scene.shelf world).store.cacheSize []) prepared
      have lockstep := lockstep_of_settled keeps holdsAt.proper place settled
      exact (pursuit.converges_of_empty lockstep rfl rfl paceStart).sync ready settled
  | cons newest older =>
      have after : (newest.id.index + 1).toInt = newest.id.index.toInt + 1 :=
        Words.toInt_succ (holdsAt.proper newest List.mem_cons_self).2
      have given : newest.id.index + 1 ≠ -1 := by
        rcases place with ⟨-, empty⟩ | ⟨natural, -⟩
        · cases empty
        · intro same
          rw [resumeIndex, same] at natural
          exact absurd natural (by decide)
      have settled : Machine.settle scene.around (newest.id.index + 1)
          ⟨startEngine follower (scene.shelf world).store.cacheSize (newest :: older), 0,
            prepared⟩ = .running _ := if_pos given
      have lockstep := lockstep_of_settled keeps holdsAt.proper place settled
      have resumes : Resumes scene final newest (newest :: older) _ :=
        ⟨lockstep, rfl, after, rfl, ahead newest rfl, paceStart⟩
      exact (pursuit.converges_of_covers resumes unambiguous covers).sync ready settled

/-- A child of the first block. -/
def staleBlock : Block := ⟨⟨1, "b"⟩, ⟨0, "a"⟩, 0, [], none⟩

/-- Another child of the first block, two indices above it. -/
def forkBlock : Block := ⟨⟨2, "c"⟩, ⟨0, "a"⟩, 0, [], none⟩

/-- The store of the first block and the stale one. -/
def staleShelf : Store.Shelf := (Store.firstShelf.serve (.add staleBlock)).2

theorem staleShelf_keeps : staleShelf.Keeps Holds [staleBlock, Store.firstBlock] :=
  (Store.firstShelf_keeps.serve_add_child (Json.decode?_encode_bareBlock _ _ _) (by decide)
    (by decide) (by rintro _ ⟨⟩; rfl) (by rintro _ ⟨⟩; decide)).2

theorem cacheSize_staleShelf : staleShelf.store.cacheSize = 20 :=
  (congrArg Store.BlockStore.cacheSize (Store.Shelf.store_run Store.firstShelf _)).trans
    Store.cacheSize_firstShelf

theorem hasRoom_staleShelf : staleShelf.store.HasRoom :=
  Store.BlockStore.hasRoom_iff.2 (by rw [cacheSize_staleShelf]; decide)

/-- A chain that omits an index: the first block and its child above the omission. -/
def forkChain (index : Int64) : Option Block :=
  if index = 0 then some Store.firstBlock else if index = 2 then some forkBlock else none

theorem forkChain_eq_some {index : Int64} {block : Block} (found : forkChain index = some block) :
    index = 0 ∧ block = Store.firstBlock ∨ index = 2 ∧ block = forkBlock := by
  unfold forkChain at found
  split at found
  next first => exact Or.inl ⟨first, (Option.some.inj found).symm⟩
  next =>
    split at found
    next fork => exact Or.inr ⟨fork, (Option.some.inj found).symm⟩
    next => cases found

theorem remoteChain_forkChain : RemoteChain forkChain 0 2 where
  natural := by decide
  small := by decide
  place found := by
    rcases forkChain_eq_some found with ⟨rfl, rfl⟩ | ⟨rfl, rfl⟩ <;> decide
  first := ⟨_, rfl, rfl⟩
  last := ⟨_, rfl⟩
  linked := by
    intro index block found other
    rcases forkChain_eq_some found with ⟨rfl, rfl⟩ | ⟨rfl, rfl⟩
    · exact absurd rfl other
    · refine ⟨0, Store.firstBlock, rfl, by decide, rfl, fun between above below => ?_⟩
      rw [forkChain, if_neg, if_neg]
      · rintro rfl
        exact absurd below (by decide)
      · rintro rfl
        exact absurd above (by decide)
  durable found := by
    rcases forkChain_eq_some found with ⟨-, rfl⟩ | ⟨-, rfl⟩ <;>
      exact Json.decode?_encode_bareBlock _ _ _
  distinct leftFound rightFound same := by
    rcases forkChain_eq_some leftFound with ⟨-, rfl⟩ | ⟨-, rfl⟩ <;>
      rcases forkChain_eq_some rightFound with ⟨-, rfl⟩ | ⟨-, rfl⟩ <;>
      first | rfl | exact absurd same (by decide)

/-- A node with that chain. -/
def forkScene : Scene Books :=
  .ofChain ⟨forkBlock.id, 0, Store.firstBlock.id, none, []⟩ forkChain

theorem pursuit_forkScene : Pursuit forkScene forkChain 0 2 2 :=
  ⟨remoteChain_forkChain, Scene.fixed_ofChain 0 rfl rfl, ⟨_, rfl⟩⟩

theorem unambiguous_forkChain : Unambiguous forkChain [staleBlock, Store.firstBlock] := by
  intro stored member index found foundAt same
  rcases forkChain_eq_some foundAt with ⟨-, rfl⟩ | ⟨-, rfl⟩ <;>
    rcases List.mem_pair.1 member with rfl | rfl <;>
    first | rfl | exact absurd same (by decide)

theorem stranger_staleBlock : ∀ stored ∈ [staleBlock], ∀ index, forkChain index ≠ some stored := by
  intro stored member index foundAt
  rw [List.mem_singleton.1 member] at foundAt
  rcases forkChain_eq_some foundAt with ⟨-, same⟩ | ⟨-, same⟩ <;>
    exact absurd (congrArg (fun block : Block => block.id.hash) same) (by decide)

/-- A window of more than one block reaches the first block below the stale one. -/
theorem covers_forkChain {cacheSize : UInt64}
    (reached : Store.firstBlock.id ∈
      (startEngine indexingFollower cacheSize [staleBlock, Store.firstBlock]).window) :
    Covers forkChain
      (startEngine indexingFollower cacheSize [staleBlock, Store.firstBlock]).window
      [staleBlock, Store.firstBlock] :=
  @Covers.common _ _ [staleBlock] [] Store.firstBlock stranger_staleBlock ⟨0, rfl⟩ reached

/-- The stale block makes way for the other child of the first block. -/
theorem sync_converges_forkChain :
    ∃ steps after, (∀ fuel, indexingFollower.sync forkScene.around forkScene.ledger (-1) 2
        (steps + fuel) (Scene.booksOf staleShelf) = (some (.ok ()), after)) ∧
      ∃ chain, (forkScene.shelf after).Keeps Holds chain ∧
        ∀ block, block ∈ chain ↔ ∃ index : Int64, 0 ≤ index ∧ index ≤ 2 ∧
          forkChain index = some block := by
  have holdsAt : forkScene.HoldsAt [staleBlock, Store.firstBlock] (Scene.booksOf staleShelf) :=
    ⟨staleShelf_keeps.sound, staleShelf_keeps.kept, by decide⟩
  have covers := @covers_forkChain staleShelf.store.cacheSize (by
    rw [startEngine_window, cacheSize_staleShelf]
    decide)
  have ahead : ∀ newest ∈ [staleBlock, Store.firstBlock].head?, newest.id.index < 2 := by
    rintro _ ⟨⟩
    decide
  have converged := sync_converges tame_indexingFollower (by decide) holdsAt
    (fun _ => hasRoom_staleShelf) pursuit_forkScene unambiguous_forkChain ahead covers
  exact converged

/-- The same store, from which more blocks are to be handed out than there can be room for. -/
def crowdedShelf : Store.Shelf :=
  ⟨⟨staleShelf.store.workers, 2305843009213693952⟩, staleShelf.session⟩

theorem holdsAt_crowdedShelf :
    forkScene.HoldsAt [staleBlock, Store.firstBlock] (Scene.booksOf crowdedShelf) :=
  ⟨staleShelf_keeps.sound, staleShelf_keeps.kept, by decide⟩

/-- From there, no run gets as far as the stale block. -/
theorem sync_diverges_crowdedShelf :
    indexingFollower.concurrency.toNat * 16 < 4611686018427387904 ∧
      crowdedShelf.store.cacheSize.toNat < 4611686018427387904 ∧
      forkScene.HoldsAt [staleBlock, Store.firstBlock] (Scene.booksOf crowdedShelf) ∧
      Pursuit forkScene forkChain 0 2 2 ∧
      Unambiguous forkChain [staleBlock, Store.firstBlock] ∧
      (∀ newest ∈ [staleBlock, Store.firstBlock].head?, newest.id.index < 2) ∧
      Covers forkChain (startEngine indexingFollower crowdedShelf.store.cacheSize
        [staleBlock, Store.firstBlock]).window [staleBlock, Store.firstBlock] ∧
      ∃ after, (∀ fuel, indexingFollower.sync forkScene.around forkScene.ledger (-1) 2 fuel
          (Scene.booksOf crowdedShelf) = (some (.error (.panicked "capacity overflow")), after)) ∧
        (forkScene.shelf after).Keeps Holds [staleBlock, Store.firstBlock] := by
  have crowded : ¬crowdedShelf.store.HasRoom := by decide
  obtain ⟨after, accesses, panics, shelf⟩ := Scene.sync_crowded indexingFollower
    holdsAt_crowdedShelf crowded (List.cons_ne_nil _ _)
  refine ⟨by decide, by decide, holdsAt_crowdedShelf, pursuit_forkScene, unambiguous_forkChain,
    by rintro _ ⟨⟩; decide, covers_forkChain (by rw [startEngine_window]; decide), after,
    fun fuel => (panics 2 fuel).1, ?_⟩
  rw [shelf]
  exact ⟨tame_indexingFollower, holdsAt_crowdedShelf.sound, holdsAt_crowdedShelf.holds⟩

end ChainFollower.Sync
